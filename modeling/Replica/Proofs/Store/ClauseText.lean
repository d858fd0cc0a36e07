/-
Replica.Proofs.Store.ClauseText — what of a predicate reaches the text of a clause.

The text of a clause is made of the columns and operators of the predicate's comparisons, each
followed by a placeholder, and of text between them that depends on nothing but the connectives
(`Spells`). The literals are the parameters, in the order of the placeholders, and nothing of
them is text: predicates that differ in their literals alone have one text
(`clause_blank`).

A name that is refused is the first one, from left to right, that cannot stand in a clause
(`ofPredicate_refused`).

Main statement: `literals_apart`.
-/
import Replica.Proofs.Predicate.FieldOrder
import Replica.Store.Condition

namespace Replica

/-! ## Names that can stand in a clause -/

/-- A field that a clause can read: the identifier, or a name of ASCII letters, digits and
underscores. -/
def Queryable (name : String) : Prop := name = "id" ∨ (name ≠ "" ∧ isWord name = true)

instance (name : String) : Decidable (Queryable name) := inferInstanceAs (Decidable (_ ∨ _))

namespace Comparison

/-- The expression that a clause reads a field by. -/
def expression (c : Comparison) : String :=
  if c.field = "id" then "id" else "json_extract(data, '$." ++ c.field ++ "')"

/-- How a clause writes an operator. -/
def relation (c : Comparison) : String := if c.op = .ne then "IS NOT" else c.op.symbol

/-- What a clause says of a comparison before the placeholder of its literal. -/
def lead (c : Comparison) : String := "(" ++ c.expression ++ " " ++ c.relation ++ " "

/-- The parameter that a literal is bound as. -/
def param (c : Comparison) : Cell := Cell.ofJson c.value

end Comparison

theorem Column.ofField_queryable {name : String} (h : Queryable name) :
    ∃ column, Column.ofField name = .ok column ∧
      column.text = if name = "id" then "id" else "json_extract(data, '$." ++ name ++ "')" := by
  rw [Column.ofField]
  by_cases hid : name = "id"
  · exact ⟨Column.id, if_pos hid, (if_pos hid).symm⟩
  · obtain ⟨hne, hword⟩ := h.resolve_left hid
    refine ⟨Column.field name, ?_, (if_neg hid).symm⟩
    exact (if_neg hid).trans (if_neg (by simp [hne, hword]))

theorem Column.ofField_refused {name : String} (h : ¬ Queryable name) :
    Column.ofField name = .error (.invalidData (.unsupportedField name)) := by
  have hid : name ≠ "id" := fun hid => h (.inl hid)
  have hbad : name = "" ∨ isWord name = false := by
    by_cases hempty : name = ""
    · exact .inl hempty
    · exact .inr (Bool.eq_false_iff.2 fun hword => h (.inr ⟨hempty, hword⟩))
  rw [Column.ofField]
  exact (if_neg hid).trans (if_pos hbad)

namespace Condition

/-! ## Placeholders -/

/-- A text reads these comparisons one after another, each with a placeholder behind it, and has
no other placeholder. -/
inductive Spells : List Comparison → List Char → Prop where
  | ending {rest : List Char} (hrest : '?' ∉ rest) : Spells [] rest
  | placeholder {c : Comparison} {cs : List Comparison} {gap rest : List Char}
      (hgap : '?' ∉ gap) (hlead : '?' ∉ c.lead.toList) (h : Spells cs rest) :
      Spells (c :: cs) (gap ++ c.lead.toList ++ '?' :: rest)

namespace Spells

variable {cs ds : List Comparison} {text more : List Char}

/-- Text without placeholders can stand before any text. -/
theorem after (hmore : '?' ∉ more) (h : Spells cs text) : Spells cs (more ++ text) := by
  cases h with
  | ending hrest =>
    refine .ending ?_
    simp [hmore, hrest]
  | placeholder hgap hlead h =>
    rw [← List.append_assoc, ← List.append_assoc]
    refine .placeholder ?_ hlead h
    simp [hmore, hgap]

theorem append (h : Spells cs text) (hmore : Spells ds more) :
    Spells (cs ++ ds) (text ++ more) := by
  induction h with
  | ending hrest => exact hmore.after hrest
  | placeholder hgap hlead h ih =>
    rw [List.append_assoc _ _ more]
    exact .placeholder hgap hlead ih

/-- Text without placeholders can stand behind any text. -/
theorem before (h : Spells cs text) (hmore : '?' ∉ more) : Spells cs (text ++ more) := by
  have hall := h.append (.ending hmore)
  rwa [List.append_nil] at hall

/-- There is a placeholder for each comparison. -/
theorem count_placeholders (h : Spells cs text) : text.count '?' = cs.length := by
  induction h with
  | ending hrest => exact List.count_eq_zero.2 hrest
  | placeholder hgap hlead h ih =>
    rw [List.count_append, List.count_append, List.count_cons_self, ih,
      List.count_eq_zero.2 hgap, List.count_eq_zero.2 hlead, List.length_cons]
    omega

end Spells

theorem word_no_placeholder {name : String} (h : isWord name = true) : '?' ∉ name.toList := by
  intro hmem
  have hword := List.all_eq_true.1 h _ hmem
  exact absurd hword (by decide)

theorem lead_no_placeholder {c : Comparison} (h : Queryable c.field) : '?' ∉ c.lead.toList := by
  have hexpression : '?' ∉ c.expression.toList := by
    unfold Comparison.expression
    split
    · decide
    · rename_i hid
      have hword := word_no_placeholder (h.resolve_left hid).2
      simp [hword]
  have hrelation : '?' ∉ c.relation.toList := by
    unfold Comparison.relation
    cases c.op <;> decide
  unfold Comparison.lead
  simp [hexpression, hrelation]

/-- A comparison is read with one placeholder. -/
theorem text_compare {c : Comparison} {column : Column} (hcolumn : column.text = c.expression)
    (param : Cell) : text (compare column c.op param) = c.lead ++ "?" ++ ")" := by
  rw [Comparison.lead, Comparison.relation, ← hcolumn]
  apply String.toList_injective
  cases c.op <;> simp [text, Operator.symbol]

theorem spells_compare {c : Comparison} (h : Queryable c.field) {column : Column}
    (hcolumn : column.text = c.expression) (param : Cell) :
    Spells [c] (text (compare column c.op param)).toList := by
  have hclose : Spells [] [')'] := .ending (by decide)
  have hall : Spells [c] ([] ++ c.lead.toList ++ '?' :: [')']) :=
    .placeholder (by simp) (lead_no_placeholder h) hclose
  rw [text_compare hcolumn]
  simpa using hall

/-! ## The clause of a predicate -/

/-- Texts in parentheses with a connective between them, or a literal if there are none. -/
def joined (connective empty : String) : List String → String
  | [] => empty
  | first :: rest => "(" ++ first ++ String.join (rest.map (connective ++ ·)) ++ ")"

theorem restText_eq (connective : String) (cs : List Condition) :
    restText connective cs = String.join ((cs.map text).map (connective ++ ·)) := by
  induction cs with
  | nil => rfl
  | cons c cs ih =>
    rw [restText, ih, List.map_cons, List.map_cons, String.join_cons, String.append_assoc]

theorem text_allOf (cs : List Condition) :
    text (allOf cs) = joined " AND " "1" (cs.map text) := by
  cases cs with
  | nil => rfl
  | cons c cs => rw [text, restText_eq, List.map_cons, joined]

theorem text_anyOf (cs : List Condition) :
    text (anyOf cs) = joined " OR " "0" (cs.map text) := by
  cases cs with
  | nil => rfl
  | cons c cs => rw [text, restText_eq, List.map_cons, joined]

mutual

/-- A predicate whose fields a clause can read has a condition, whose text reads its
comparisons and whose parameters are their literals. -/
theorem ofPredicate_queryable : ∀ p : Predicate, (∀ c ∈ p.comparisons, Queryable c.field) →
    ∃ condition, ofPredicate p = .ok condition ∧ Spells p.comparisons condition.text.toList ∧
      condition.params = p.comparisons.map Comparison.param
  | .all, _ => ⟨always, rfl, .ending (by decide), rfl⟩
  | .compare field op value, h => by
    have hfield : Queryable field := h ⟨field, op, value⟩ (by simp [Predicate.comparisons])
    obtain ⟨column, hcolumn, htext⟩ := Column.ofField_queryable hfield
    refine ⟨compare column op (Cell.ofJson value), ?_, ?_, rfl⟩
    · rw [ofPredicate, hcolumn]
    · exact spells_compare (c := ⟨field, op, value⟩) hfield htext _
  | .allOf parts, h => by
    obtain ⟨cs, hcs, htext, -, hparams⟩ :=
      ofPredicates_queryable parts (by simpa [Predicate.comparisons] using h)
    refine ⟨allOf cs, ?_, ?_, ?_⟩
    · rw [ofPredicate, hcs]
    · rw [text_allOf, Predicate.comparisons]
      exact htext " AND " "1" (by decide) (by decide)
    · rw [params, hparams, Predicate.comparisons]
  | .anyOf parts, h => by
    obtain ⟨cs, hcs, htext, -, hparams⟩ :=
      ofPredicates_queryable parts (by simpa [Predicate.comparisons] using h)
    refine ⟨anyOf cs, ?_, ?_, ?_⟩
    · rw [ofPredicate, hcs]
    · rw [text_anyOf, Predicate.comparisons]
      exact htext " OR " "0" (by decide) (by decide)
    · rw [params, hparams, Predicate.comparisons]
  | .complement part, h => by
    obtain ⟨c, hc, htext, hparams⟩ :=
      ofPredicate_queryable part (by simpa [Predicate.comparisons] using h)
    refine ⟨complement c, ?_, ?_, ?_⟩
    · rw [ofPredicate, hc]
    · have hopen : '?' ∉ "(NOT COALESCE(".toList := by decide
      have hclose : '?' ∉ ", 0))".toList := by decide
      rw [text, String.toList_append, String.toList_append, Predicate.comparisons]
      exact (htext.after hopen).before hclose
    · rw [params, hparams, Predicate.comparisons]

/-- So have lists of them, in parentheses as well as behind a first part. -/
theorem ofPredicates_queryable : ∀ ps : List Predicate,
    (∀ c ∈ Predicate.comparisonsOf ps, Queryable c.field) →
    ∃ cs, ofPredicates ps = .ok cs ∧
      (∀ connective empty : String, '?' ∉ connective.toList → '?' ∉ empty.toList →
        Spells (Predicate.comparisonsOf ps) (joined connective empty (cs.map text)).toList) ∧
      (∀ connective : String, '?' ∉ connective.toList →
        Spells (Predicate.comparisonsOf ps) (restText connective cs).toList) ∧
      paramsOf cs = (Predicate.comparisonsOf ps).map Comparison.param
  | [], _ => by
    refine ⟨[], rfl, fun _ _ _ hempty => .ending hempty, fun _ _ => .ending ?_, rfl⟩
    simp [restText]
  | p :: ps, h => by
    rw [Predicate.comparisonsOf] at h
    obtain ⟨c, hc, htext, hparams⟩ :=
      ofPredicate_queryable p fun x hx => h x (List.mem_append_left _ hx)
    obtain ⟨cs, hcs, -, hrest, hmore⟩ :=
      ofPredicates_queryable ps fun x hx => h x (List.mem_append_right _ hx)
    refine ⟨c :: cs, ?_, ?_, ?_, ?_⟩
    · rw [ofPredicates, hc, hcs]
    · intro connective empty hconnective hempty
      have hopen : '?' ∉ "(".toList := by decide
      have hclose : '?' ∉ ")".toList := by decide
      rw [List.map_cons, joined, ← restText_eq, Predicate.comparisonsOf, String.toList_append,
        String.toList_append, String.toList_append]
      exact ((htext.after hopen).append (hrest connective hconnective)).before hclose
    · intro connective hconnective
      rw [restText, Predicate.comparisonsOf, String.toList_append, String.toList_append]
      exact (htext.after hconnective).append (hrest connective hconnective)
    · rw [paramsOf, Predicate.comparisonsOf, List.map_append, hparams, hmore]

end

mutual

/-- The first field that a clause cannot read is the one that is refused. -/
theorem ofPredicate_refused {name : String} : ∀ p : Predicate,
    p.namedFields.find? (fun field => ¬ Queryable field) = some name →
    ofPredicate p = .error (.invalidData (.unsupportedField name))
  | .all, h => by
    cases h
  | .compare field op value, h => by
    have hbad : ¬ Queryable name := by simpa using List.find?_some h
    obtain rfl : name = field := List.mem_singleton.1 (List.mem_of_find?_eq_some h)
    rw [ofPredicate, Column.ofField_refused hbad]
  | .allOf parts, h => by
    rw [ofPredicate, ofPredicates_refused parts h]
  | .anyOf parts, h => by
    rw [ofPredicate, ofPredicates_refused parts h]
  | .complement part, h => by
    rw [ofPredicate, ofPredicate_refused part h]

theorem ofPredicates_refused {name : String} : ∀ ps : List Predicate,
    ((Predicate.comparisonsOf ps).map Comparison.field).find? (fun field => ¬ Queryable field)
      = some name →
    ofPredicates ps = .error (.invalidData (.unsupportedField name))
  | [], h => by
    cases h
  | p :: ps, h => by
    rw [Predicate.comparisonsOf, List.map_append, List.find?_append] at h
    cases hp : p.namedFields.find? (fun field => ¬ Queryable field) with
    | some first =>
      rw [Predicate.namedFields] at hp
      rw [hp, Option.some_or] at h
      cases h
      rw [ofPredicates, ofPredicate_refused p hp]
    | none =>
      have hqueryable : ∀ c ∈ p.comparisons, Queryable c.field := by
        intro c hc
        simpa using List.find?_eq_none.1 hp c.field (List.mem_map_of_mem hc)
      obtain ⟨condition, hcondition, -, -⟩ := ofPredicate_queryable p hqueryable
      rw [Predicate.namedFields] at hp
      rw [hp, Option.none_or] at h
      rw [ofPredicates, hcondition, ofPredicates_refused ps h]

end

end Condition

/-! ## Predicates that differ in their literals -/

namespace Predicate

mutual

/-- A predicate without its literals. -/
def blank : Predicate → Predicate
  | all => all
  | compare field op _ => compare field op .null
  | allOf parts => allOf (blankAll parts)
  | anyOf parts => anyOf (blankAll parts)
  | complement part => complement (blank part)

/-- A list of predicates without their literals. -/
def blankAll : List Predicate → List Predicate
  | [] => []
  | p :: ps => blank p :: blankAll ps

end

end Predicate

namespace Condition

/-! ### Clauses from clauses -/

/-- The text of a predicate's clause. -/
def clause (p : Predicate) : Except StoreError String := (ofPredicate p).map text

/-- The texts of the clauses of a list of predicates. -/
def clauses (ps : List Predicate) : Except StoreError (List String) :=
  (ofPredicates ps).map (List.map text)

theorem clause_allOf (parts : List Predicate) :
    clause (.allOf parts) = (clauses parts).map (joined " AND " "1") := by
  rw [clause, clauses, ofPredicate]
  cases ofPredicates parts with
  | error e => rfl
  | ok cs => exact congrArg Except.ok (text_allOf cs)

theorem clause_anyOf (parts : List Predicate) :
    clause (.anyOf parts) = (clauses parts).map (joined " OR " "0") := by
  rw [clause, clauses, ofPredicate]
  cases ofPredicates parts with
  | error e => rfl
  | ok cs => exact congrArg Except.ok (text_anyOf cs)

theorem clause_complement (part : Predicate) :
    clause (.complement part)
      = (clause part).map fun inner => "(NOT COALESCE(" ++ inner ++ ", 0))" := by
  rw [clause, clause, ofPredicate]
  cases ofPredicate part with
  | error e => rfl
  | ok c => rfl

theorem clauses_cons (p : Predicate) (ps : List Predicate) :
    clauses (p :: ps) = (clause p).bind fun first => (clauses ps).map (first :: ·) := by
  rw [clauses, clauses, clause, ofPredicates]
  cases ofPredicate p with
  | error e => rfl
  | ok c =>
    cases ofPredicates ps with
    | error e => rfl
    | ok cs => rfl

mutual

/-- The text of a clause, or the fault, is that of the predicate without its literals. -/
theorem clause_blank : ∀ p : Predicate, clause p.blank = clause p
  | .all => rfl
  | .compare field op value => by
    rw [Predicate.blank, clause, clause, ofPredicate, ofPredicate]
    cases Column.ofField field with
    | error e => rfl
    | ok column => cases op <;> rfl
  | .allOf parts => by
    rw [Predicate.blank, clause_allOf, clause_allOf, clauses_blankAll parts]
  | .anyOf parts => by
    rw [Predicate.blank, clause_anyOf, clause_anyOf, clauses_blankAll parts]
  | .complement part => by
    rw [Predicate.blank, clause_complement, clause_complement, clause_blank part]

theorem clauses_blankAll : ∀ ps : List Predicate, clauses (Predicate.blankAll ps) = clauses ps
  | [] => rfl
  | p :: ps => by
    rw [Predicate.blankAll, clauses_cons, clauses_cons, clause_blank p, clauses_blankAll ps]

end

/-- The literals of a predicate stay out of the text of its clause. A clause is made unless a
field cannot stand in it, and the first of those is named by the fault. It has a placeholder for
each comparison, in their order, and the literals are the parameters of the placeholders.
Predicates that differ in their literals alone have one text. The fields are listed once each, in
the order in which they are compared first. -/
theorem literals_apart (p : Predicate) :
    ((∃ condition, ofPredicate p = .ok condition) ↔ ∀ name ∈ p.fields, Queryable name) ∧
    ((¬ ∀ name ∈ p.fields, Queryable name) →
      ∃ name, p.fields.find? (fun name => ¬ Queryable name) = some name ∧
        ofPredicate p = .error (.invalidData (.unsupportedField name))) ∧
    (∀ condition, ofPredicate p = .ok condition →
      condition.text.toList.count '?' = condition.params.length ∧
      Spells p.comparisons condition.text.toList ∧
      condition.params = p.comparisons.map (fun c => Cell.ofJson c.value)) ∧
    (∀ q : Predicate, q.blank = p.blank →
      (ofPredicate q).map text = (ofPredicate p).map text) ∧
    (∀ name, name ∈ p.fields ↔ ∃ c ∈ p.comparisons, c.field = name) ∧
    p.fields.Nodup ∧
    p.fields.Pairwise (fun a b => p.namedFields.idxOf a < p.namedFields.idxOf b) := by
  have hok : (∀ name ∈ p.fields, Queryable name) →
      ∃ condition, ofPredicate p = .ok condition ∧
        Spells p.comparisons condition.text.toList ∧
        condition.params = p.comparisons.map Comparison.param := by
    intro h
    exact ofPredicate_queryable p fun c hc => h c.field (Predicate.mem_fields.2 ⟨c, hc, rfl⟩)
  have hrefused : (¬ ∀ name ∈ p.fields, Queryable name) →
      ∃ name, p.fields.find? (fun name => ¬ Queryable name) = some name ∧
        ofPredicate p = .error (.invalidData (.unsupportedField name)) := by
    intro h
    cases hfind : p.fields.find? (fun name => ¬ Queryable name) with
    | none =>
      refine absurd (fun name hname => ?_) h
      simpa using List.find?_eq_none.1 hfind name hname
    | some name =>
      refine ⟨name, rfl, ofPredicate_refused p ?_⟩
      rwa [← Predicate.find?_fields]
  have hqueryable : ∀ condition, ofPredicate p = .ok condition →
      ∀ name ∈ p.fields, Queryable name := by
    intro condition hcondition
    by_contra hsome
    obtain ⟨name, -, herror⟩ := hrefused hsome
    rw [hcondition] at herror
    cases herror
  refine ⟨⟨?_, ?_⟩, hrefused, ?_, ?_, fun name => Predicate.mem_fields,
    Predicate.fields_nodup p, Predicate.fields_in_order p⟩
  · rintro ⟨condition, hcondition⟩
    exact hqueryable condition hcondition
  · intro h
    obtain ⟨condition, hcondition, -, -⟩ := hok h
    exact ⟨condition, hcondition⟩
  · intro condition hcondition
    obtain ⟨same, hsame, hspells, hparams⟩ := hok (hqueryable condition hcondition)
    obtain rfl : condition = same := Except.ok.inj (hcondition.symm.trans hsame)
    refine ⟨?_, hspells, hparams⟩
    rw [hspells.count_placeholders, hparams, List.length_map]
  · intro q hsame
    have h := (clause_blank q).symm.trans ((congrArg clause hsame).trans (clause_blank p))
    exact h

/-- An age, and not an identifier that is a piece of SQL with a placeholder. -/
def trickyPredicate : Predicate :=
  .allOf [.compare "age" .gt (.int 3), .complement (.compare "id" .eq (.str "?' OR 1=1 --"))]

/-- The question mark and the quote of the literal are in a parameter and not in the text. -/
theorem trickyPredicate_apart : ∃ condition, ofPredicate trickyPredicate = .ok condition ∧
    condition.text = "((json_extract(data, '$.age') > ?) AND (NOT COALESCE((id = ?), 0)))" ∧
    condition.text.toList.count '?' = condition.params.length ∧
    Spells [⟨"age", .gt, .int 3⟩, ⟨"id", .eq, .str "?' OR 1=1 --"⟩] condition.text.toList ∧
    condition.params = [.integer 3, .text "?' OR 1=1 --"] ∧
    (ofPredicate trickyPredicate).map text
      = (ofPredicate (.allOf [.compare "age" .gt .null,
          .complement (.compare "id" .eq (.str "a"))])).map text := by
  obtain ⟨-, -, hclause, hblank, -⟩ := literals_apart trickyPredicate
  obtain ⟨condition, hcondition⟩ : ∃ condition, ofPredicate trickyPredicate = .ok condition :=
    ⟨_, rfl⟩
  obtain ⟨hcount, hspells, hparams⟩ := hclause condition hcondition
  refine ⟨condition, hcondition, ?_, hcount, hspells, hparams, (hblank _ rfl).symm⟩
  cases hcondition
  decide

end Condition

end Replica
