/-
Replica.Proofs.Request.SentValues — which of the queries' values a request sends.

A request sends each value under a name: a shared variable under its own, any other with the
model's name behind it. Values are put one after another. One that is not shared replaces what
stands under its name, and a shared one is put only where nothing stands. So under every name
stands the last value that is not shared, if there is one, and else the first shared value
(`get?_foldl_put`).

The model's name is only written behind, with nothing in between, so names of different
variables may be spelled alike: `tagBig` of `Font` and `tag` of `BigFont` are one name, and the
later value is sent for both (`boldTag_overwritten`). A query's own value is certain to be sent
where no variable of another model is spelled like it, and the first value of a shared variable
where no other variable is spelled like that (`values_sent`).
-/
import Mathlib.Data.List.Nodup
import Replica.Proofs.Request.UnionOutcome

namespace Replica

/-- One value of one query. -/
structure OwnValue where
  model : String
  key : String
  value : Json

namespace OwnValue

/-- What a request calls the value. -/
def name (v : OwnValue) : String := Variable.namespaced v.key v.model

/-- The value, if it is not shared and goes by a name. -/
def replacing? (name : String) (v : OwnValue) : Option Json :=
  if Variable.isShared v.key = false ∧ v.name = name then some v.value else none

/-- The value, if it is shared and goes by a name. -/
def filling? (name : String) (v : OwnValue) : Option Json :=
  if Variable.isShared v.key = true ∧ v.name = name then some v.value else none

/-- Put a value under its name; a shared one only where nothing stands. -/
def put (values : Dict Json) (v : OwnValue) : Dict Json :=
  if Variable.isShared v.key && values.contains v.name then values
  else values.insert v.name v.value

theorem name_of_shared {v : OwnValue} (h : Variable.isShared v.key = true) : v.name = v.key := by
  rw [name, Variable.namespaced, if_pos h]

theorem name_of_own {v : OwnValue} (h : Variable.isShared v.key = false) :
    v.name = v.key ++ v.model := by
  rw [name, Variable.namespaced, h]
  rfl

/-- What putting one value does under a name. -/
theorem get?_put (values : Dict Json) (v : OwnValue) (name : String) :
    (v.put values).get? name
      = ((v.replacing? name).or (values.get? name)).or (v.filling? name) := by
  unfold put replacing? filling?
  cases hshared : Variable.isShared v.key with
  | false =>
    by_cases hname : v.name = name
    · simp [hname]
    · simp [hname]
  | true =>
    by_cases hname : v.name = name
    · subst hname
      cases hold : values.get? v.name with
      | none => simp [Dict.contains, hold]
      | some old => simp [Dict.contains, hold]
    · simp only [hname, and_false, if_false, Option.none_or, Option.or_none]
      split
      · rfl
      · rw [Dict.get?_insert, if_neg hname]

end OwnValue

/-- The values of a query, by name. -/
def ModelQuery.ownValues (q : ModelQuery) : List OwnValue :=
  q.values.entries.map fun e => ⟨q.model, e.1, e.2⟩

namespace Request

/-! ## Putting values -/

/-- The values of some queries, in the order in which they are put. -/
def ownValues (queries : List ModelQuery) : List OwnValue := queries.flatMap ModelQuery.ownValues

/-- The last value under a name that is not shared. -/
def lastReplacing? (vs : List OwnValue) (name : String) : Option Json :=
  vs.reverse.findSome? (OwnValue.replacing? name)

/-- The first shared value under a name. -/
def firstFilling? (vs : List OwnValue) (name : String) : Option Json :=
  vs.findSome? (OwnValue.filling? name)

theorem lastReplacing?_cons (v : OwnValue) (vs : List OwnValue) (name : String) :
    lastReplacing? (v :: vs) name = (lastReplacing? vs name).or (v.replacing? name) := by
  rw [lastReplacing?, List.reverse_cons, List.findSome?_append, lastReplacing?,
    List.findSome?_cons]
  cases v.replacing? name <;> rfl

theorem firstFilling?_cons (v : OwnValue) (vs : List OwnValue) (name : String) :
    firstFilling? (v :: vs) name = (v.filling? name).or (firstFilling? vs name) := by
  rw [firstFilling?, List.findSome?_cons, firstFilling?]
  cases v.filling? name <;> rfl

/-- Under a name stands the last value that is not shared, else what stood there, else the
first shared value. -/
theorem get?_foldl_put (vs : List OwnValue) (values : Dict Json) (name : String) :
    (vs.foldl (fun all v => v.put all) values).get? name
      = ((lastReplacing? vs name).or (values.get? name)).or (firstFilling? vs name) := by
  induction vs generalizing values with
  | nil => simp [lastReplacing?, firstFilling?]
  | cons v vs ih =>
    rw [List.foldl_cons, ih, OwnValue.get?_put, lastReplacing?_cons, firstFilling?_cons]
    simp only [Option.or_assoc]

theorem addValues_eq (q : ModelQuery) (values : Dict Json) :
    addValues q.model q.values.entries values
      = q.ownValues.foldl (fun all v => v.put all) values := by
  rw [ModelQuery.ownValues, List.foldl_map]
  rfl

theorem addQuery_values {draft draft' : Draft} {q : ModelQuery}
    (h : addQuery draft q = .ok draft') :
    draft'.values = q.ownValues.foldl (fun all v => v.put all) draft.values := by
  rw [addQuery] at h
  split at h
  · cases h
  · split at h
    · cases h
    · cases h
      exact addValues_eq q draft.values

theorem addQueries_values {queries : List ModelQuery} {draft draft' : Draft}
    (h : addQueries draft queries = .ok draft') :
    draft'.values = (ownValues queries).foldl (fun all v => v.put all) draft.values := by
  induction queries generalizing draft with
  | nil =>
    cases h
    rfl
  | cons q rest ih =>
    rw [addQueries] at h
    split at h
    · rename_i next hnext
      rw [ih h, addQuery_values hnext, ownValues, ownValues, List.flatMap_cons, List.foldl_append]
    · cases h

/-- What a union sends under each name. -/
theorem get?_union {queries : List ModelQuery} {q : Request} (h : union queries = .ok q)
    (name : String) :
    q.values.get? name = (lastReplacing? (ownValues queries) name).or
      (firstFilling? (ownValues queries) name) := by
  obtain ⟨draft, hadd, rfl, -⟩ := union_drafted h
  show draft.values.get? name = _
  rw [addQueries_values hadd, get?_foldl_put, Dict.get?_empty, Option.or_none]

/-! ## Names that are spelled alike -/

/-- A query has a variable, not a shared one, that a request calls by this name. -/
def Calls (own : ModelQuery) (name : String) : Prop :=
  ∃ key, Variable.isShared key = false ∧ own.values.contains key = true ∧ key ++ own.model = name

theorem calls_iff {own : ModelQuery} {name : String} : Calls own name ↔
    ∃ e ∈ own.values.entries, Variable.isShared e.1 = false ∧ e.1 ++ own.model = name := by
  constructor
  · rintro ⟨key, hshared, hcontains, hname⟩
    obtain ⟨value, hget⟩ := Option.isSome_iff_exists.1 hcontains
    exact ⟨(key, value), Dict.mem_entries.2 hget, hshared, hname⟩
  · rintro ⟨e, he, hshared, hname⟩
    refine ⟨e.1, hshared, ?_, hname⟩
    rw [Dict.contains, Dict.mem_entries.1 he]
    rfl

instance (own : ModelQuery) (name : String) : Decidable (Calls own name) :=
  decidable_of_iff _ calls_iff.symm

theorem mem_ownValues {queries : List ModelQuery} {v : OwnValue} :
    v ∈ ownValues queries ↔
      ∃ own ∈ queries, own.model = v.model ∧ own.values.get? v.key = some v.value := by
  simp only [ownValues, ModelQuery.ownValues, List.mem_flatMap, List.mem_map]
  constructor
  · rintro ⟨own, hown, e, he, rfl⟩
    exact ⟨own, hown, rfl, Dict.mem_entries.1 he⟩
  · rintro ⟨own, hown, hmodel, hget⟩
    refine ⟨own, hown, (v.key, v.value), Dict.mem_entries.2 hget, ?_⟩
    rw [hmodel]

/-- A value that replaces others comes from a query with a variable of the name. -/
theorem calls_of_replacing {queries : List ModelQuery} {v : OwnValue} (hv : v ∈ ownValues queries)
    {name : String} {value : Json} (h : v.replacing? name = some value) :
    ∃ own ∈ queries, own.values.get? v.key = some value ∧ v.key ++ own.model = name ∧
      Calls own name := by
  obtain ⟨own, hown, hmodel, hget⟩ := mem_ownValues.1 hv
  rw [OwnValue.replacing?] at h
  split at h
  · rename_i hname
    cases h
    have hspelled : v.key ++ own.model = name := by
      rw [hmodel, ← OwnValue.name_of_own hname.1, hname.2]
    have hcontains : own.values.contains v.key = true := by rw [Dict.contains, hget]; rfl
    exact ⟨own, hown, hget, hspelled, v.key, hname.1, hcontains, hspelled⟩
  · cases h

/-- The last value under a name is the only one, if there is but one. -/
theorem lastReplacing?_eq_some {vs : List OwnValue} {name : String} {value : Json}
    (hsome : ∃ v ∈ vs, v.replacing? name = some value)
    (honly : ∀ v ∈ vs, ∀ other, v.replacing? name = some other → other = value) :
    lastReplacing? vs name = some value := by
  cases hlast : lastReplacing? vs name with
  | none =>
    obtain ⟨v, hv, hvalue⟩ := hsome
    have hnone := List.findSome?_eq_none_iff.1 hlast v (List.mem_reverse.2 hv)
    rw [hnone] at hvalue
    cases hvalue
  | some other =>
    obtain ⟨v, hv, hother⟩ := List.exists_of_findSome?_eq_some hlast
    rw [honly v (List.mem_reverse.1 hv) other hother]

theorem lastReplacing?_eq_none {queries : List ModelQuery} {name : String}
    (h : ∀ own ∈ queries, ¬ Calls own name) : lastReplacing? (ownValues queries) name = none := by
  refine List.findSome?_eq_none_iff.2 fun v hv => ?_
  cases hreplacing : v.replacing? name with
  | none => rfl
  | some value =>
    obtain ⟨own, hown, -, -, hcalls⟩ := calls_of_replacing (List.mem_reverse.1 hv) hreplacing
    exact absurd hcalls (h own hown)

/-- A query fills the name of a shared variable with its own value of it. -/
theorem firstFilling?_query {name : String} (hshared : Variable.isShared name = true)
    (q : ModelQuery) : firstFilling? q.ownValues name = q.values.get? name := by
  have hfill : ∀ e : String × Json, OwnValue.filling? name ⟨q.model, e.1, e.2⟩
      = if e.1 = name then some e.2 else none := by
    intro e
    unfold OwnValue.filling?
    by_cases hkey : Variable.isShared e.1 = true
    · rw [OwnValue.name_of_shared hkey]
      simp [hkey]
    · have hne : e.1 ≠ name := fun he => hkey (he ▸ hshared)
      simp [hkey, hne]
  show (q.values.entries.map _).findSome? _ = Dict.lookupEntry name q.values.entries
  rw [List.findSome?_map]
  generalize q.values.entries = entries
  induction entries with
  | nil => rfl
  | cons e rest ih =>
    rw [List.findSome?_cons, Function.comp, hfill, Dict.lookupEntry]
    by_cases hkey : e.1 = name
    · simp [hkey]
    · simp only [hkey, if_false]
      exact ih

theorem firstFilling?_ownValues {name : String} (hshared : Variable.isShared name = true)
    (queries : List ModelQuery) :
    firstFilling? (ownValues queries) name = queries.findSome? fun own => own.values.get? name := by
  induction queries with
  | nil => rfl
  | cons q rest ih =>
    have happend : firstFilling? (ownValues (q :: rest)) name
        = (firstFilling? q.ownValues name).or (firstFilling? (ownValues rest) name) := by
      rw [firstFilling?, ownValues, List.flatMap_cons, List.findSome?_append]
      rfl
    rw [happend, firstFilling?_query hshared, ih, List.findSome?_cons]
    cases q.values.get? name <;> rfl

/-! ## What is sent -/

/-- Under every name a union sends the last value that is not shared, if there is one, and else
the first shared value. So a query's own value is sent if no other model has a variable that is
spelled alike, and the first value of a shared variable if no variable of a model is. -/
theorem values_sent {queries : List ModelQuery} {q : Request} (h : union queries = .ok q) :
    (∀ name, q.values.get? name = (lastReplacing? (ownValues queries) name).or
      (firstFilling? (ownValues queries) name)) ∧
    (∀ own ∈ queries, ∀ key value, own.values.get? key = some value →
      Variable.isShared key = false →
      (∀ other ∈ queries, Calls other (key ++ own.model) → other.model = own.model) →
      q.values.get? (Variable.namespaced key own.model) = some value) ∧
    (∀ key, Variable.isShared key = true → (∀ other ∈ queries, ¬ Calls other key) →
      q.values.get? key = queries.findSome? fun own => own.values.get? key) := by
  refine ⟨get?_union h, ?_, ?_⟩
  · intro own hown key value hget hshared halone
    obtain ⟨draft, -, -, hdrafted⟩ := union_drafted h
    have hname : Variable.namespaced key own.model = key ++ own.model :=
      OwnValue.name_of_own (v := ⟨own.model, key, value⟩) hshared
    have hlast : lastReplacing? (ownValues queries) (key ++ own.model) = some value := by
      refine lastReplacing?_eq_some ⟨⟨own.model, key, value⟩, ?_, ?_⟩ ?_
      · exact mem_ownValues.2 ⟨own, hown, rfl, hget⟩
      · rw [OwnValue.replacing?, if_pos ⟨hshared, hname⟩]
      · intro v hv other hother
        obtain ⟨sender, hsender, hvalue, hspelled, hcalls⟩ := calls_of_replacing hv hother
        have hsame := halone sender hsender hcalls
        obtain rfl := List.inj_on_of_nodup_map hdrafted.models hsender hown hsame
        rw [(String.append_left_inj _).1 hspelled, hget] at hvalue
        exact (Option.some.inj hvalue).symm
    rw [hname, get?_union h, hlast, Option.some_or]
  · intro key hshared hnone
    rw [get?_union h, lastReplacing?_eq_none hnone, Option.none_or,
      firstFilling?_ownValues hshared]

/-- A query that sends one value of its own and its limit. -/
def sending (model key value : String) (limit : Nat) : ModelQuery where
  model := model
  resultKey := resultKeyFor model
  body := resultKeyFor model
  declarations := []
  values := Dict.ofEntries [(key, .str value), ("limit", .int limit)]
  predicate := .all

/-- The tags of two models, one of which ends like the other. -/
def fontTags : List ModelQuery :=
  [sending "BigFont" "tag" "bold" 10, sending "Font" "tag" "thin" 20]

theorem fontTags_sent : ∃ q, union fontTags = .ok q ∧
    q.values.get? "tagBigFont" = some (.str "bold") ∧
    q.values.get? "tagFont" = some (.str "thin") ∧ q.values.get? "limit" = some (.int 10) := by
  obtain ⟨q, hq⟩ : ∃ q, union fontTags = .ok q := ⟨_, rfl⟩
  obtain ⟨-, hown, hshared⟩ := values_sent hq
  refine ⟨q, hq, ?_, ?_, ?_⟩
  · exact hown (sending "BigFont" "tag" "bold" 10) (by simp [fontTags]) "tag" _ rfl rfl (by decide)
  · exact hown (sending "Font" "tag" "thin" 20) (by simp [fontTags]) "tag" _ rfl rfl (by decide)
  · exact hshared "limit" rfl (by decide)

/-- The tag of `BigFont` and the variable `tagBig` of `Font` go by one name, and so do a variable
`last` of `Sync` and the time of the last sync that all queries share. -/
def spelledAlike : List ModelQuery :=
  [sending "BigFont" "tag" "bold" 10, sending "Font" "tagBig" "thin" 10,
    sending "Banner" "lastSync" "monday" 10, sending "Sync" "last" "never" 10]

/-- Of two values that go by one name, one is lost, also if it is the first one of a variable that
all queries share. -/
theorem boldTag_overwritten : ∃ q, union spelledAlike = .ok q ∧
    (Variable.isShared "tag" = false ∧
      (∃ own ∈ spelledAlike, own.model = "BigFont" ∧ own.values.get? "tag" = some (.str "bold")) ∧
      q.values.get? (Variable.namespaced "tag" "BigFont") = some (.str "thin")) ∧
    (Variable.isShared "lastSync" = true ∧
      spelledAlike.findSome? (fun own => own.values.get? "lastSync") = some (.str "monday") ∧
      q.values.get? "lastSync" = some (.str "never")) := by
  refine ⟨_, rfl, ⟨rfl, ?_, by decide⟩, rfl, by decide, by decide⟩
  exact ⟨sending "BigFont" "tag" "bold" 10, by simp [spelledAlike], rfl, rfl⟩

end Request

end Replica
