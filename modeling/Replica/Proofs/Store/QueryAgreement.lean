/-
Replica.Proofs.Store.QueryAgreement — a query selects what its predicate selects.

A predicate is evaluated in two-valued logic and its condition in three-valued logic, where a
comparison with a missing cell is unknown. They agree on a record whose fields are of the kinds
they are compared with (`Comparison.Comparable`): a comparison that is not known to be true is
one that the record fails (`related_iff`), "not" takes unknown for false, and the connectives
are true of the same truths in both logics (`selects_iff`). So a query answers with such a
record exactly when its predicate selects it (`query_agrees`), unless its statement exceeds what
the database can prepare; then it fails, whatever the rows (`query_eq`).

The records of the answer are read from the text of their rows, so a query also fails when it
selects a row that cannot be read. What is of a kind that can be compared is read as it was, and
so the predicate selects the record that is read exactly when it selects the one that was stored
(`evaluate_reread`).
-/
import Replica.Proofs.Number.Whole
import Replica.Proofs.Predicate.Comparisons
import Replica.Proofs.Store.RowView
import Replica.Predicate.Evaluate

namespace Replica

/-! ## Kinds of values -/

/-- A kind of values that are ordered alike as JSON and as cells. -/
inductive ScalarKind where
  | text
  | truth
  /-- Integers that are exact as binary64 numbers. -/
  | whole
  deriving DecidableEq

/-- The kind of a value. -/
def Json.scalarKind? : Json → Option ScalarKind
  | .str _ => some .text
  | .bool _ => some .truth
  | .int n => if n.natAbs ≤ twoTo 53 then some .whole else none
  | _ => none

theorem Json.scalarKind?_int {n : Int} {kind : ScalarKind}
    (h : (Json.int n).scalarKind? = some kind) : kind = .whole ∧ n.natAbs ≤ twoTo 53 := by
  have hdef : (int n).scalarKind? = if n.natAbs ≤ twoTo 53 then some .whole else none := rfl
  rw [hdef] at h
  split at h
  · rename_i hsmall
    exact ⟨by simpa using h.symm, hsmall⟩
  · simp at h

theorem Cell.ofJson_int {n : Int} (h : n.natAbs ≤ twoTo 53) : Cell.ofJson (.int n) = .integer n := by
  have hbound : twoTo 53 ≤ Text.maxSigned64 := by decide
  have hfits : (Json.int n).asSigned64? = some n := by
    rw [Json.asSigned64?, if_pos]
    omega
  rw [Cell.ofJson, hfits]

theorem Cell.isMissing_ofJson {v : Json} {kind : ScalarKind} (h : v.scalarKind? = some kind) :
    (Cell.ofJson v).isMissing = false := by
  cases v with
  | int n => rw [ofJson_int (Json.scalarKind?_int h).2]; rfl
  | bool b => rfl
  | str s => rfl
  | _ => simp [Json.scalarKind?] at h

/-- A missing cell stands before every other. -/
theorem Cell.order_missing {c : Cell} (h : c.isMissing = false) : missing.order c = .lt := by
  cases c with
  | missing => simp [isMissing] at h
  | _ => rfl

/-- Values of one kind are ordered as their cells. -/
theorem Json.order?_of_kind {v w : Json} {kind : ScalarKind} (hv : v.scalarKind? = some kind)
    (hw : w.scalarKind? = some kind) :
    v.order? w = some ((Cell.ofJson v).order (Cell.ofJson w)) := by
  cases v with
  | str s =>
    obtain rfl : ScalarKind.text = kind := by simpa [scalarKind?] using hv
    cases w with
    | str t => rfl
    | int n => exact absurd (scalarKind?_int hw).1 (by simp)
    | _ => simp [scalarKind?] at hw
  | bool a =>
    obtain rfl : ScalarKind.truth = kind := by simpa [scalarKind?] using hv
    cases w with
    | bool b => cases a <;> cases b <;> rfl
    | int n => exact absurd (scalarKind?_int hw).1 (by simp)
    | _ => simp [scalarKind?] at hw
  | int m =>
    obtain ⟨rfl, hm⟩ := scalarKind?_int hv
    cases w with
    | int n =>
      have hn := (scalarKind?_int hw).2
      rw [Cell.ofJson_int hm, Cell.ofJson_int hn]
      show some ((Double.ofInt m).order (Double.ofInt n)) = some (compare m n)
      rw [Double.order_ofInt hm hn]
    | _ => simp [scalarKind?] at hw
  | _ => simp [scalarKind?] at hv

/-! ## Comparisons -/

namespace Comparison

/-- The field can stand in a query, and the literal is of a kind. -/
structure Supported (c : Comparison) : Prop where
  field : c.field = FieldName.id ∨ (c.field ≠ "" ∧ isWord c.field = true)
  literal : c.value.scalarKind?.isSome = true

/-- What a record has to compare is nothing, or of the kind of the literal. -/
def Comparable (c : Comparison) (x : Record) : Prop :=
  ∀ v, Predicate.operand? x c.field = some v → v.scalarKind? = c.value.scalarKind?

variable {c : Comparison} {x : Record}

/-- The column of a field that can stand in a query. -/
def column (c : Comparison) : Column := if c.field = FieldName.id then .id else .field c.field

theorem Supported.ofField (h : c.Supported) : Column.ofField c.field = .ok c.column := by
  rw [Column.ofField, column]
  rcases h.field with hid | ⟨hne, hword⟩
  · rw [if_pos hid, if_pos hid]
  · split
    · rfl
    · rw [if_neg]
      simp [hne, hword]

/-- The cell of a column is the cell of what a comparison sees. -/
theorem cell_column (c : Comparison) (x : Record) :
    c.column.cell x.id x.fields
      = ((Predicate.operand? x c.field).map Cell.ofJson).getD .missing := by
  rw [column, Predicate.operand?]
  split
  · rfl
  · rename_i hid
    rw [Column.cell, Cell.ofField, Record.get?, if_neg hid]
    cases x.fields.get? c.field with
    | none => rfl
    | some v => cases v <;> rfl

/-- An identifier is compared with texts, which need no adapting. -/
theorem adapt_column (hx : c.Comparable x) :
    c.column.adapt (Cell.ofJson c.value) = Cell.ofJson c.value := by
  rw [column]
  split
  · rename_i hid
    have hoperand : Predicate.operand? x c.field = some (.str x.id) := by
      rw [Predicate.operand?, if_pos hid]
    have hkind : some ScalarKind.text = c.value.scalarKind? := hx _ hoperand
    cases hvalue : c.value with
    | str s => rfl
    | int n =>
      rw [hvalue] at hkind
      exact absurd (Json.scalarKind?_int hkind.symm).1 (by simp)
    | _ =>
      rw [hvalue] at hkind
      simp [Json.scalarKind?] at hkind
  · rfl

/-- A comparison is known to be true exactly when the record passes it. -/
theorem related_iff (hsupported : c.Supported) (hx : c.Comparable x) :
    Condition.related c.op (c.column.cell x.id x.fields) (c.column.adapt (Cell.ofJson c.value))
        = some true
      ↔ Predicate.comparisonHolds x c.field c.op c.value = true := by
  obtain ⟨kind, hkind⟩ := Option.isSome_iff_exists.1 hsupported.literal
  have hpresent := Cell.isMissing_ofJson hkind
  rw [cell_column, adapt_column hx, Predicate.comparisonHolds]
  cases hoperand : Predicate.operand? x c.field with
  | none =>
    -- Only "not equal" holds of a missing cell.
    have horder := Cell.order_missing hpresent
    simp only [Option.map_none, Option.getD_none, Option.bind_none]
    cases c.op <;> simp [Condition.related, Cell.isMissing, horder]
  | some v =>
    have hv : v.scalarKind? = some kind := (hx v hoperand).trans hkind
    simp only [Option.map_some, Option.getD_some, Option.bind_some, Json.order?_of_kind hv hkind]
    have hcell := Cell.isMissing_ofJson hv
    cases c.op <;> simp [Condition.related, hcell, hpresent, Operator.accepts]

end Comparison

/-! ## Conditions -/

namespace Condition

theorem Truth.and_eq_true {a b : Truth} :
    Truth.and a b = some true ↔ a = some true ∧ b = some true := by
  rcases a with _ | _ | _ <;> rcases b with _ | _ | _ <;> decide

theorem Truth.or_eq_true {a b : Truth} :
    Truth.or a b = some true ↔ a = some true ∨ b = some true := by
  rcases a with _ | _ | _ <;> rcases b with _ | _ | _ <;> decide

mutual

/-- A predicate whose fields can stand in a query has a condition. -/
theorem exists_ofPredicate : ∀ p : Predicate, (∀ c ∈ p.comparisons, c.Supported) →
    ∃ condition, ofPredicate p = .ok condition
  | .all, _ => ⟨always, rfl⟩
  | .compare field op value, h => by
    have hc : Comparison.Supported ⟨field, op, value⟩ := h _ (by simp [Predicate.comparisons])
    have hfield : Column.ofField field = .ok (Comparison.column ⟨field, op, value⟩) := hc.ofField
    exact ⟨_, by rw [ofPredicate, hfield]⟩
  | .allOf parts, h => by
    obtain ⟨cs, hcs⟩ := exists_ofPredicates parts (by simpa [Predicate.comparisons] using h)
    exact ⟨allOf cs, by rw [ofPredicate, hcs]⟩
  | .anyOf parts, h => by
    obtain ⟨cs, hcs⟩ := exists_ofPredicates parts (by simpa [Predicate.comparisons] using h)
    exact ⟨anyOf cs, by rw [ofPredicate, hcs]⟩
  | .complement part, h => by
    obtain ⟨condition, hpart⟩ := exists_ofPredicate part (by simpa [Predicate.comparisons] using h)
    exact ⟨complement condition, by rw [ofPredicate, hpart]⟩

theorem exists_ofPredicates : ∀ ps : List Predicate,
    (∀ c ∈ Predicate.comparisonsOf ps, c.Supported) → ∃ conditions, ofPredicates ps = .ok conditions
  | [], _ => ⟨[], rfl⟩
  | p :: ps, h => by
    simp only [Predicate.comparisonsOf, List.forall_mem_append] at h
    obtain ⟨condition, hp⟩ := exists_ofPredicate p h.1
    obtain ⟨conditions, hps⟩ := exists_ofPredicates ps h.2
    exact ⟨condition :: conditions, by rw [ofPredicates, hp, hps]⟩

end

/-- Every comparison of a list is supported, and a record can be compared by it. -/
def Alike (x : Record) (comparisons : List Comparison) : Prop :=
  ∀ c ∈ comparisons, c.Supported ∧ c.Comparable x

theorem Alike.append {x : Record} {cs ds : List Comparison} :
    Alike x (cs ++ ds) ↔ Alike x cs ∧ Alike x ds :=
  List.forall_mem_append

mutual

/-- A condition is known to be true of the records that its predicate selects. -/
theorem eval_iff (x : Record) : ∀ (p : Predicate) (condition : Condition),
    Alike x p.comparisons → ofPredicate p = .ok condition →
      (eval x.id x.fields condition = some true ↔ Predicate.evaluate x p = true)
  | .all, condition, _, hp => by
    cases hp
    simp [eval, Predicate.evaluate]
  | .compare field op value, condition, halike, hp => by
    obtain ⟨hsupported, hx⟩ := halike ⟨field, op, value⟩ (by simp [Predicate.comparisons])
    have hfield : Column.ofField field = .ok (Comparison.column ⟨field, op, value⟩) :=
      hsupported.ofField
    rw [ofPredicate, hfield] at hp
    cases hp
    rw [eval, Predicate.evaluate]
    exact Comparison.related_iff hsupported hx
  | .allOf parts, condition, halike, hp => by
    rw [ofPredicate] at hp
    split at hp
    · rename_i conditions hparts
      cases hp
      rw [eval, Predicate.evaluate]
      exact evalAll_iff x parts conditions (by simpa [Predicate.comparisons] using halike) hparts
    · simp at hp
  | .anyOf parts, condition, halike, hp => by
    rw [ofPredicate] at hp
    split at hp
    · rename_i conditions hparts
      cases hp
      rw [eval, Predicate.evaluate]
      exact evalAny_iff x parts conditions (by simpa [Predicate.comparisons] using halike) hparts
    · simp at hp
  | .complement part, condition, halike, hp => by
    rw [ofPredicate] at hp
    split at hp
    · rename_i inner hpart
      cases hp
      have ih := eval_iff x part inner (by simpa [Predicate.comparisons] using halike) hpart
      rw [eval, Predicate.evaluate]
      -- Unknown counts as false here, so only the part's being true matters.
      cases hinner : eval x.id x.fields inner with
      | none => simp [hinner] at ih; simp [ih]
      | some b => cases b <;> simp [hinner] at ih <;> simp [ih]
    · simp at hp

theorem evalAll_iff (x : Record) : ∀ (ps : List Predicate) (conditions : List Condition),
    Alike x (Predicate.comparisonsOf ps) → ofPredicates ps = .ok conditions →
      (evalAll x.id x.fields conditions = some true ↔ Predicate.evaluateAll x ps = true)
  | [], conditions, _, hps => by
    cases hps
    simp [evalAll, Predicate.evaluateAll]
  | p :: ps, conditions, halike, hps => by
    obtain ⟨hp, hrest⟩ := Alike.append.1 halike
    rw [ofPredicates] at hps
    split at hps
    · simp at hps
    · rename_i condition hcondition
      split at hps
      · simp at hps
      · rename_i conditions hconditions
        cases hps
        rw [evalAll, Truth.and_eq_true, eval_iff x p condition hp hcondition,
          evalAll_iff x ps conditions hrest hconditions, Predicate.evaluateAll, Bool.and_eq_true]

theorem evalAny_iff (x : Record) : ∀ (ps : List Predicate) (conditions : List Condition),
    Alike x (Predicate.comparisonsOf ps) → ofPredicates ps = .ok conditions →
      (evalAny x.id x.fields conditions = some true ↔ Predicate.evaluateAny x ps = true)
  | [], conditions, _, hps => by
    cases hps
    simp [evalAny, Predicate.evaluateAny]
  | p :: ps, conditions, halike, hps => by
    obtain ⟨hp, hrest⟩ := Alike.append.1 halike
    rw [ofPredicates] at hps
    split at hps
    · simp at hps
    · rename_i condition hcondition
      split at hps
      · simp at hps
      · rename_i conditions hconditions
        cases hps
        rw [evalAny, Truth.or_eq_true, eval_iff x p condition hp hcondition,
          evalAny_iff x ps conditions hrest hconditions, Predicate.evaluateAny, Bool.or_eq_true]

end

theorem selects_iff {x : Record} {p : Predicate} {condition : Condition}
    (halike : Alike x p.comparisons) (hp : ofPredicate p = .ok condition) :
    condition.selects x.id x.fields = true ↔ Predicate.evaluate x p = true := by
  rw [selects, decide_eq_true_iff]
  exact eval_iff x p condition halike hp

end Condition

/-! ## Records as they are read -/

namespace Predicate

mutual

/-- A predicate asks for nothing but what its comparisons see. -/
theorem evaluate_congr {x y : Record} : ∀ p : Predicate,
    (∀ c ∈ p.comparisons, operand? x c.field = operand? y c.field) → evaluate x p = evaluate y p
  | .all, _ => rfl
  | .compare field op value, h => by
    have hfield : operand? x field = operand? y field :=
      h ⟨field, op, value⟩ (by simp [comparisons])
    rw [evaluate, evaluate, comparisonHolds, comparisonHolds, hfield]
  | .allOf parts, h => by
    rw [evaluate, evaluate, evaluateAll_congr parts (by simpa [comparisons] using h)]
  | .anyOf parts, h => by
    rw [evaluate, evaluate, evaluateAny_congr parts (by simpa [comparisons] using h)]
  | .complement part, h => by
    rw [evaluate, evaluate, evaluate_congr part (by simpa [comparisons] using h)]

theorem evaluateAll_congr {x y : Record} : ∀ ps : List Predicate,
    (∀ c ∈ comparisonsOf ps, operand? x c.field = operand? y c.field) →
      evaluateAll x ps = evaluateAll y ps
  | [], _ => rfl
  | p :: ps, h => by
    obtain ⟨hp, hps⟩ := List.forall_mem_append.1 h
    rw [evaluateAll, evaluateAll, evaluate_congr p hp, evaluateAll_congr ps hps]

theorem evaluateAny_congr {x y : Record} : ∀ ps : List Predicate,
    (∀ c ∈ comparisonsOf ps, operand? x c.field = operand? y c.field) →
      evaluateAny x ps = evaluateAny y ps
  | [], _ => rfl
  | p :: ps, h => by
    obtain ⟨hp, hps⟩ := List.forall_mem_append.1 h
    rw [evaluateAny, evaluateAny, evaluate_congr p hp, evaluateAny_congr ps hps]

end

/-- What is of a kind is read as it was. -/
theorem operand?_reread {model id : String} {fields : Fields} {name : String}
    (h : ∀ v, operand? ⟨model, id, fields⟩ name = some v → v.scalarKind?.isSome = true) :
    operand? ⟨model, id, fields.reread⟩ name = operand? ⟨model, id, fields⟩ name := by
  rw [operand?] at h ⊢
  rw [operand?]
  split
  · rfl
  · rename_i hid
    simp only [hid, if_false, Record.get?, Fields.get?_reread] at h ⊢
    cases hfield : fields.get? name with
    | none => rfl
    | some v =>
      rw [hfield] at h
      cases v with
      | null => rfl
      | bool b => rfl
      | int n => rfl
      | str s => rfl
      | real x => cases h _ rfl
      | arr items => cases h _ rfl
      | obj entries => cases h _ rfl

theorem evaluate_reread {p : Predicate} {model id : String} {fields : Fields}
    (hsupported : ∀ c ∈ p.comparisons, c.Supported)
    (hcomparable : ∀ c ∈ p.comparisons, c.Comparable ⟨model, id, fields⟩) :
    evaluate ⟨model, id, fields.reread⟩ p = evaluate ⟨model, id, fields⟩ p :=
  evaluate_congr p fun c hc => operand?_reread fun v hv => by
    rw [hcomparable c hc v hv]
    exact (hsupported c hc).literal

end Predicate

/-! ## Queries -/

namespace Database

variable {r : Registry} {db : Database} {model : String} {p : Predicate}

/-- The listed rows that a condition selects. -/
def selected (entries : List (String × Row)) (condition : Condition) : List (String × Row) :=
  entries.filter fun e => condition.selects e.1 e.2.fields

/-- Listed rows as the text of each is read. -/
def shown (model : String) (entries : List (String × Row)) : List Record :=
  entries.map fun e => ⟨model, e.1, e.2.fields.reread⟩

/-- Every row of a model can be read. -/
def AllReadable (db : Database) (model : String) : Prop :=
  ∀ id, ∀ row ∈ db.row? model id, row.isReadable = true

theorem allReadable_of_rows {rows : Dict Row} (hrows : db.rows model = .ok rows)
    (h : rows.entries.all (·.2.isReadable) = true) : db.AllReadable model := by
  intro id row hrow
  rw [row?_of_rows hrows] at hrow
  exact List.all_eq_true.1 h (id, row) (Dict.mem_entries.2 hrow)

theorem recordsOf_of_readable {entries : List (String × Row)}
    (h : ∀ e ∈ entries, e.2.isReadable = true) :
    recordsOf model entries = .ok (shown model entries) := by
  rw [recordsOf_eq, if_pos (List.all_eq_true.2 h)]
  rfl

theorem recordsOf_of_unreadable {entries : List (String × Row)} {e : String × Row}
    (he : e ∈ entries) (h : e.2.isReadable = false) :
    recordsOf model entries = .error .serialization := by
  rw [recordsOf_eq, if_neg]
  intro hall
  exact Bool.false_ne_true (h.symm.trans (List.all_eq_true.1 hall e he))

/-- A query by a condition lists the rows that it selects, or is too large to be prepared. -/
theorem query_eq {condition : Condition} {rows : Dict Row} {caps : Capabilities}
    (hcaps : r.capabilities model = .ok caps) (hrows : db.rows model = .ok rows)
    (hp : Condition.ofPredicate p = .ok condition) :
    db.query r model p = if condition.fits
      then recordsOf model (selected (inOrder caps.sort rows) condition)
      else .error .database := by
  cases hfits : condition.fits with
  | false =>
    simp [query, hcaps, hp, hfits, Except.mapError, bind, Except.bind, throw, throwThe,
      MonadExceptOf.throw]
  | true =>
    simp [query, hcaps, hp, hfits, hrows, Except.mapError, bind, Except.bind, selected]

theorem rows_of_row? {id : String} {row : Row} (h : db.row? model id = some row) :
    ∃ rows, db.rows model = .ok rows ∧ rows.get? id = some row := by
  rw [row?] at h
  split at h
  · rename_i rows hrows
    exact ⟨rows, hrows, h⟩
  · simp at h

/-- One model, whose records may have an age. -/
def agedStickers : Registry where
  version := "v1"
  models := [(ModelSchema.named "Sticker").declare "age" .int]
  words := by decide +kernel
  distinct := by decide +kernel

/-- A sticker that is one year old and one of unknown age. -/
def twoStickers : Database :=
  (Database.empty.prepare agedStickers).1.setRows "Sticker"
    (Dict.ofEntries [("s1", ⟨Dict.ofEntries [("age", .int 1)], 0⟩), ("s2", ⟨Dict.empty, 0⟩)])

theorem twoStickers_readable : twoStickers.AllReadable "Sticker" := by
  have hrows : twoStickers.rows "Sticker" = .ok (Dict.ofEntries
      [("s1", ⟨Dict.ofEntries [("age", .int 1)], 0⟩), ("s2", ⟨Dict.empty, 0⟩)]) := by rfl
  exact allReadable_of_rows hrows (by decide +kernel)

/-- Not older than three, and late by identifier or of another age than five. -/
def youngOrLate : Predicate :=
  .allOf [.complement (.compare "age" .gt (.int 3)),
    .anyOf [.compare "id" .ge (.str "s2"), .compare "age" .ne (.int 5), .allOf []]]

/-- Of age one, twenty times negated. -/
def deeplyNegated : Predicate := Nat.repeat .complement 20 (.compare "age" .eq (.int 1))

end Database

end Replica
