/-
Replica.Proofs.Predicate.Comparisons — the comparisons that a predicate is made of.

Conditions on a predicate's fields and literals are conditions on its comparisons, wherever
they stand in it. `mem_fields` says that these are the fields that `Predicate.fields` lists.
-/
import Replica.Predicate.Basic

namespace Replica

/-- One comparison of a predicate. -/
structure Comparison where
  field : String
  op : Operator
  value : Json

namespace Predicate

mutual

/-- The comparisons of a predicate, in the order of their text. -/
def comparisons : Predicate → List Comparison
  | all => []
  | compare field op value => [⟨field, op, value⟩]
  | allOf parts => comparisonsOf parts
  | anyOf parts => comparisonsOf parts
  | complement part => comparisons part

/-- The comparisons of a list of predicates. -/
def comparisonsOf : List Predicate → List Comparison
  | [] => []
  | p :: ps => comparisons p ++ comparisonsOf ps

end

/-! ## Fields -/

mutual

theorem mem_addFields (name : String) : ∀ (p : Predicate) (seen : List String),
    name ∈ addFields seen p ↔ name ∈ seen ∨ ∃ c ∈ p.comparisons, c.field = name
  | all, seen => by simp [addFields, comparisons]
  | compare field op value, seen => by
    by_cases h : field ∈ seen
    · simp only [addFields, comparisons, List.contains_iff_mem.2 h, if_true]
      constructor
      · intro hname
        exact .inl hname
      · rintro (hname | ⟨c, hc, rfl⟩)
        · exact hname
        · rw [List.mem_singleton.1 hc]
          exact h
    · simp [addFields, comparisons, h, eq_comm]
  | allOf parts, seen => by
    simpa [addFields, comparisons] using mem_addFieldsOf name parts seen
  | anyOf parts, seen => by
    simpa [addFields, comparisons] using mem_addFieldsOf name parts seen
  | complement part, seen => by
    simpa [addFields, comparisons] using mem_addFields name part seen

theorem mem_addFieldsOf (name : String) : ∀ (ps : List Predicate) (seen : List String),
    name ∈ addFieldsOf seen ps ↔ name ∈ seen ∨ ∃ c ∈ comparisonsOf ps, c.field = name
  | [], seen => by simp [addFieldsOf, comparisonsOf]
  | p :: ps, seen => by
    rw [addFieldsOf, mem_addFieldsOf name ps, mem_addFields name p, or_assoc]
    simp only [comparisonsOf, List.mem_append, or_and_right, exists_or]

end

/-- The fields of a predicate are those that its comparisons read. -/
theorem mem_fields {p : Predicate} {name : String} :
    name ∈ p.fields ↔ ∃ c ∈ p.comparisons, c.field = name := by
  simp [fields, mem_addFields]

end Predicate

end Replica
