/-
Replica.Proofs.Predicate.FilterAgreement — how far a backend filter means what its predicate
means.

A filter leaves the predicate of every record out of lists. In a conjunction this changes
nothing, since such a part is neutral there. In a disjunction it would have made every record
selected, and without it the other parts decide. So a filter selects what its predicate
selects once these parts are left out (`accepts_toFilter`). This is the predicate itself
unless a disjunction, at whatever depth, has such a part (`evaluate_sent`).
-/
import Replica.Proofs.Predicate.Comparisons
import Replica.Proofs.Predicate.FilterMeaning

namespace Replica

namespace Predicate

/-! ## What is sent of a predicate -/

mutual

/-- The predicate with the parts left out that its filter leaves out. -/
def sent : Predicate → Predicate
  | all => all
  | compare field op value => compare field op value
  | allOf parts => allOf (sentParts parts)
  | anyOf parts => anyOf (sentParts parts)
  | complement part => complement (sent part)

/-- The parts of a list that are not left out. -/
def sentParts : List Predicate → List Predicate
  | [] => []
  | p :: ps => if p.isAll then sentParts ps else sent p :: sentParts ps

end

mutual

/-- Whether no disjunction has the predicate of every record among its parts. -/
def isStrict : Predicate → Bool
  | all => true
  | compare _ _ _ => true
  | allOf parts => areStrict parts
  | anyOf parts => !parts.any isAll && areStrict parts
  | complement part => isStrict part

/-- Whether this holds of every predicate of a list. -/
def areStrict : List Predicate → Bool
  | [] => true
  | p :: ps => isStrict p && areStrict ps

end

theorem eq_all_of_isAll {p : Predicate} (h : p.isAll = true) : p = all := by
  cases p <;> simp [isAll] at h ⊢

/-! ## Filters of lists -/

@[simp] theorem toFilter_all : toFilter all = .null := by
  simp [toFilter]

/-- Only the predicate of every record has no filter. -/
theorem toFilter_ne_null {p : Predicate} (h : p.isAll = false) : p.toFilter ≠ .null := by
  cases p with
  | all => simp [isAll] at h
  | complement part =>
    rw [toFilter]
    split <;> simp
  | _ => simp [toFilter]

theorem filtersOf_cons_all (ps : List Predicate) : filtersOf (all :: ps) = filtersOf ps := by
  simp [filtersOf]

theorem filtersOf_cons {p : Predicate} (h : p.isAll = false) (ps : List Predicate) :
    filtersOf (p :: ps) = p.toFilter :: filtersOf ps := by
  rw [filtersOf]
  split
  · rename_i hnull
    exact absurd hnull (toFilter_ne_null h)
  · rfl

/-! ## Filters against predicates -/

/-- A name that stands for a field in a filter. -/
def IsPlainField (name : String) : Prop := name ≠ "and" ∧ name ≠ "or" ∧ name ≠ "not"

/-- The filter of a comparison is read as the comparison. -/
theorem accepts_compare (x : Record) {field : String} (h : IsPlainField field) (op : Operator)
    (value : Json) :
    Filter.accepts x (toFilter (compare field op value)) = comparisonHolds x field op value := by
  obtain ⟨-, -, hnot⟩ := h
  have hop : Operator.ofKey? op.key = some op := by cases op <;> rfl
  rw [toFilter, Filter.accepts, Filter.acceptsEntries]
  · simp [Filter.acceptsEntries, Filter.compares, hop]
  · simp [hnot]

/-- The filter of a complement is read as the complement. -/
theorem accepts_complement (x : Record) (part : Predicate) :
    Filter.accepts x (toFilter (complement part)) = !Filter.accepts x part.toFilter := by
  rw [toFilter]
  split
  · rename_i hnull
    simp [hnull, Filter.accepts, Filter.acceptsEntries]
  · simp [Filter.accepts, Filter.acceptsEntries]

mutual

/-- A filter selects what is left of its predicate. -/
theorem accepts_toFilter (x : Record) : ∀ p : Predicate,
    (∀ c ∈ p.comparisons, IsPlainField c.field) →
      Filter.accepts x p.toFilter = evaluate x p.sent
  | all, _ => by simp [Filter.accepts, sent, evaluate]
  | compare field op value, h => by
    have hfield : IsPlainField field := h ⟨field, op, value⟩ (by simp [comparisons])
    rw [accepts_compare x hfield, sent, evaluate]
  | allOf parts, h => by
    have hparts : ∀ c ∈ comparisonsOf parts, IsPlainField c.field := by
      simpa [comparisons] using h
    simp [toFilter, Filter.accepts, Filter.acceptsEntries, sent, evaluate,
      acceptsAll_filtersOf x parts hparts]
  | anyOf parts, h => by
    have hparts : ∀ c ∈ comparisonsOf parts, IsPlainField c.field := by
      simpa [comparisons] using h
    simp [toFilter, Filter.accepts, Filter.acceptsEntries, sent, evaluate,
      acceptsSome_filtersOf x parts hparts]
  | complement part, h => by
    have hpart : ∀ c ∈ part.comparisons, IsPlainField c.field := by
      simpa [comparisons] using h
    rw [accepts_complement, accepts_toFilter x part hpart, sent, evaluate]

theorem acceptsAll_filtersOf (x : Record) : ∀ ps : List Predicate,
    (∀ c ∈ comparisonsOf ps, IsPlainField c.field) →
      Filter.acceptsAll x (filtersOf ps) = evaluateAll x (sentParts ps)
  | [], _ => by simp [filtersOf, Filter.acceptsAll, sentParts, evaluateAll]
  | p :: ps, h => by
    simp only [comparisonsOf, List.forall_mem_append] at h
    have hrest := acceptsAll_filtersOf x ps h.2
    by_cases hall : p.isAll = true
    · rw [sentParts, if_pos hall, eq_all_of_isAll hall, filtersOf_cons_all, hrest]
    · have hsome : p.isAll = false := by simpa using hall
      rw [filtersOf_cons hsome, Filter.acceptsAll, accepts_toFilter x p h.1, hrest, sentParts,
        if_neg hall, evaluateAll]

theorem acceptsSome_filtersOf (x : Record) : ∀ ps : List Predicate,
    (∀ c ∈ comparisonsOf ps, IsPlainField c.field) →
      Filter.acceptsSome x (filtersOf ps) = evaluateAny x (sentParts ps)
  | [], _ => by simp [filtersOf, Filter.acceptsSome, sentParts, evaluateAny]
  | p :: ps, h => by
    simp only [comparisonsOf, List.forall_mem_append] at h
    have hrest := acceptsSome_filtersOf x ps h.2
    by_cases hall : p.isAll = true
    · rw [sentParts, if_pos hall, eq_all_of_isAll hall, filtersOf_cons_all, hrest]
    · have hsome : p.isAll = false := by simpa using hall
      rw [filtersOf_cons hsome, Filter.acceptsSome, accepts_toFilter x p h.1, hrest, sentParts,
        if_neg hall, evaluateAny]

end

/-! ## What is left out -/

mutual

/-- Nothing is lost of a predicate whose disjunctions have no part that selects every
record. -/
theorem evaluate_sent (x : Record) : ∀ p : Predicate, p.isStrict = true →
    evaluate x p.sent = evaluate x p
  | all, _ => by simp [sent]
  | compare field op value, _ => by simp [sent]
  | allOf parts, h => by
    rw [isStrict] at h
    rw [sent, evaluate, evaluate, evaluateAll_sentParts x parts h]
  | anyOf parts, h => by
    simp only [isStrict, Bool.and_eq_true, Bool.not_eq_true'] at h
    rw [sent, evaluate, evaluate, evaluateAny_sentParts x parts h.1 h.2]
  | complement part, h => by
    rw [isStrict] at h
    rw [sent, evaluate, evaluate, evaluate_sent x part h]

/-- A part that selects every record is neutral in a conjunction. -/
theorem evaluateAll_sentParts (x : Record) : ∀ ps : List Predicate, areStrict ps = true →
    evaluateAll x (sentParts ps) = evaluateAll x ps
  | [], _ => by simp [sentParts]
  | p :: ps, h => by
    simp only [areStrict, Bool.and_eq_true] at h
    have hrest := evaluateAll_sentParts x ps h.2
    by_cases hall : p.isAll = true
    · rw [sentParts, if_pos hall, hrest, eq_all_of_isAll hall]
      simp [evaluateAll, evaluate]
    · rw [sentParts, if_neg hall, evaluateAll, evaluateAll, evaluate_sent x p h.1, hrest]

theorem evaluateAny_sentParts (x : Record) : ∀ ps : List Predicate, ps.any isAll = false →
    areStrict ps = true → evaluateAny x (sentParts ps) = evaluateAny x ps
  | [], _, _ => by simp [sentParts]
  | p :: ps, hnone, h => by
    simp only [areStrict, Bool.and_eq_true] at h
    simp only [List.any_cons, Bool.or_eq_false_iff] at hnone
    rw [sentParts, if_neg (by simp [hnone.1]), evaluateAny, evaluateAny,
      evaluate_sent x p h.1, evaluateAny_sentParts x ps hnone.2 h.2]

end

/-- **Meaning of the backend filter.** A filter selects what its predicate selects without the
parts that stand for every record; without such a part in a disjunction it selects what its
predicate selects. -/
theorem filter_meaning (p : Predicate) (hfields : ∀ name ∈ p.fields, IsPlainField name)
    (x : Record) :
    Filter.accepts x p.toFilter = evaluate x p.sent
      ∧ (p.isStrict = true → Filter.accepts x p.toFilter = evaluate x p) := by
  have hplain : ∀ c ∈ p.comparisons, IsPlainField c.field := by
    intro c hc
    exact hfields c.field (mem_fields.2 ⟨c, hc, rfl⟩)
  have hsent := accepts_toFilter x p hplain
  refine ⟨hsent, ?_⟩
  intro hstrict
  rw [hsent, evaluate_sent x p hstrict]

/-! ### A disjunction with the predicate of every record -/

/-- Neither old nor, unless it is free, small. -/
def youngAndSmall : Predicate :=
  allOf [all, complement (compare "age" .gt (.int 9)),
    anyOf [compare "size" .le (.int 3), complement (complement (compare "free" .eq (.bool true)))]]

/-- Nested connectives keep their meaning. -/
theorem youngAndSmall_meaning :
    (∀ name ∈ youngAndSmall.fields, IsPlainField name) ∧ youngAndSmall.isStrict = true
      ∧ Filter.accepts ⟨"Sticker", "s1", Dict.ofEntries [("age", .int 4), ("size", .int 2)]⟩
          youngAndSmall.toFilter
        = evaluate ⟨"Sticker", "s1", Dict.ofEntries [("age", .int 4), ("size", .int 2)]⟩
          youngAndSmall := by
  have hfields : ∀ name ∈ youngAndSmall.fields, IsPlainField name := by
    have hlist : youngAndSmall.fields = ["age", "size", "free"] := by decide +kernel
    rw [hlist]
    simp [IsPlainField]
  exact ⟨hfields, rfl, (filter_meaning youngAndSmall hfields _).2 rfl⟩

/-- The records of every kind or those named "Cat". -/
def allOrCat : Predicate := anyOf [all, compare "name" .eq (.str "Cat")]

/-- The predicate selects every record; its filter asks for the name. -/
theorem allOrCat_narrowed :
    allOrCat.fields = ["name"]
      ∧ evaluate ⟨"Sticker", "s1", Dict.empty⟩ allOrCat = true
      ∧ Filter.accepts ⟨"Sticker", "s1", Dict.empty⟩ allOrCat.toFilter = false := by
  decide +kernel

end Predicate

end Replica
