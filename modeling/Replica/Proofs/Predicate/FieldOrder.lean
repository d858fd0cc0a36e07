/-
Replica.Proofs.Predicate.FieldOrder — in which order the fields of a predicate are listed.

The fields are noted one after another as the comparisons name them, and a field that is noted
already is passed over (`fields_eq`). So each field stands in the list once, at the place where
it is named first (`fields_in_order`), and the first field with a property is the first
comparison's field with it (`find?_fields`).
-/
import Mathlib.Data.List.Basic
import Mathlib.Data.List.Induction
import Replica.Proofs.Predicate.Comparisons

namespace Replica.Predicate

/-- The compared fields, as often as they are compared, from left to right. -/
def namedFields (p : Predicate) : List String := p.comparisons.map Comparison.field

/-- Add a field to a list unless it is there. -/
def note (seen : List String) (name : String) : List String :=
  if seen.contains name then seen else seen ++ [name]

theorem note_of_mem {seen : List String} {name : String} (h : name ∈ seen) :
    note seen name = seen := by
  rw [note, if_pos (List.contains_iff_mem.2 h)]

theorem note_of_not_mem {seen : List String} {name : String} (h : name ∉ seen) :
    note seen name = seen ++ [name] := by
  rw [note, if_neg (mt List.contains_iff_mem.1 h)]

mutual

theorem addFields_eq : ∀ (p : Predicate) (seen : List String),
    addFields seen p = (p.comparisons.map Comparison.field).foldl note seen
  | all, seen => rfl
  | compare field op value, seen => rfl
  | allOf parts, seen => by
    simpa only [addFields, comparisons] using addFieldsOf_eq parts seen
  | anyOf parts, seen => by
    simpa only [addFields, comparisons] using addFieldsOf_eq parts seen
  | complement part, seen => by
    simpa only [addFields, comparisons] using addFields_eq part seen

theorem addFieldsOf_eq : ∀ (ps : List Predicate) (seen : List String),
    addFieldsOf seen ps = ((comparisonsOf ps).map Comparison.field).foldl note seen
  | [], seen => rfl
  | p :: ps, seen => by
    rw [addFieldsOf, addFields_eq p seen, addFieldsOf_eq ps, comparisonsOf, List.map_append,
      List.foldl_append]

end

/-- The fields are noted as they are named. -/
theorem fields_eq (p : Predicate) : p.fields = p.namedFields.foldl note [] :=
  addFields_eq p []

theorem mem_foldl_note {names : List String} {name : String} :
    name ∈ names.foldl note [] ↔ name ∈ names := by
  induction names using List.reverseRecOn with
  | nil => simp
  | append_singleton names last ih =>
    rw [List.foldl_append, List.foldl_cons, List.foldl_nil]
    by_cases hlast : last ∈ names.foldl note []
    · rw [note_of_mem hlast, ih, List.mem_append, List.mem_singleton]
      constructor
      · intro h
        exact .inl h
      · rintro (h | rfl)
        · exact h
        · exact ih.1 hlast
    · rw [note_of_not_mem hlast, List.mem_append, List.mem_append, ih]

/-- Names are noted in the order in which they come up. -/
theorem foldl_note_in_order (names : List String) :
    (names.foldl note []).Pairwise fun a b => names.idxOf a < names.idxOf b := by
  induction names using List.reverseRecOn with
  | nil => simp
  | append_singleton names last ih =>
    -- A further name moves no name that came up before.
    have hkept : ((names.foldl note []).Pairwise fun a b =>
        (names ++ [last]).idxOf a < (names ++ [last]).idxOf b) := by
      refine ih.imp_of_mem ?_
      intro a b ha hb hlt
      rwa [List.idxOf_append_of_mem (mem_foldl_note.1 ha),
        List.idxOf_append_of_mem (mem_foldl_note.1 hb)]
    rw [List.foldl_append, List.foldl_cons, List.foldl_nil]
    by_cases hlast : last ∈ names.foldl note []
    · rwa [note_of_mem hlast]
    · rw [note_of_not_mem hlast, List.pairwise_append]
      refine ⟨hkept, List.pairwise_singleton _ _, ?_⟩
      intro a ha b hb
      rw [List.mem_singleton.1 hb, List.idxOf_append_of_mem (mem_foldl_note.1 ha),
        List.idxOf_append_of_notMem (mt mem_foldl_note.2 hlast)]
      have hbefore := List.idxOf_lt_length_of_mem (mem_foldl_note.1 ha)
      omega

/-- Each field stands at the place where it is named first. -/
theorem fields_in_order (p : Predicate) :
    p.fields.Pairwise fun a b => p.namedFields.idxOf a < p.namedFields.idxOf b := by
  rw [fields_eq]
  exact foldl_note_in_order p.namedFields

theorem fields_nodup (p : Predicate) : p.fields.Nodup := by
  refine (fields_in_order p).imp ?_
  intro a b hlt hsame
  rw [hsame] at hlt
  exact Nat.lt_irrefl _ hlt

theorem find?_foldl_note (test : String → Bool) (names seen : List String) :
    (names.foldl note seen).find? test = (seen ++ names).find? test := by
  induction names generalizing seen with
  | nil => simp
  | cons name names ih =>
    rw [List.foldl_cons, ih]
    by_cases hname : name ∈ seen
    · -- If nothing before passes the test, neither does this name.
      rw [note_of_mem hname, List.find?_append, List.find?_append]
      cases hseen : seen.find? test with
      | some found => rfl
      | none =>
        have htest : test name = false := by simpa using List.find?_eq_none.1 hseen name hname
        rw [List.find?_cons, htest]
    · rw [note_of_not_mem hname, List.append_assoc, List.singleton_append]

/-- The first field with a property is the first that is named with it. -/
theorem find?_fields (test : String → Bool) (p : Predicate) :
    p.fields.find? test = p.namedFields.find? test := by
  rw [fields_eq, find?_foldl_note, List.nil_append]

end Replica.Predicate
