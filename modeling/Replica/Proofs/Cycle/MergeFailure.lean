/-
Replica.Proofs.Cycle.MergeFailure — a merge takes effect as a whole or not at all.

The groups' models are looked up before anything is written. Each item is then written under
the model of its own record, which may be another one, so an item that cannot be written may
come after any number that were; the transaction takes all of them back. Without a hook there
is no other failure (`Ending`): the tables of all registered models are there in every content
that a store can have (`Store.Reached`), and an item whose model has a table is applied.

Main statement: `merge_all_or_nothing`.
-/
import Replica.Proofs.Cycle.MergeWork
import Replica.Proofs.Cycle.MergedRows
import Replica.Proofs.Cycle.Stages

namespace Replica.Merger

variable {m : Merger} {r : Registry} {groups : List ModelGroup} {db : Database}

/-- How a merge ends when no hook changes records. The models of the groups are looked up among
those of the merge, the models of the items among those of the store. -/
inductive Ending (m : Merger) (r : Registry) (groups : List ModelGroup) :
    Except SyncError MergeStats → Prop
  /-- A group's model is not registered; it is the first such group. -/
  | unknownGroup {before after : List ModelGroup} {g : ModelGroup}
      (hsplit : groups = before ++ g :: after)
      (hbefore : ∀ x ∈ before, x.model ∈ m.registry.modelNames)
      (hunknown : g.model ∉ m.registry.modelNames) :
      Ending m r groups (.error (.schema (.unknownModel g.model)))
  /-- The model of an item's record is not registered; it is the first such item. -/
  | unknownItem (hknown : ∀ g ∈ groups, g.model ∈ m.registry.modelNames)
      {before after : List Item} {i : Item} (hsplit : itemsOf groups = before ++ i :: after)
      (hbefore : ∀ x ∈ before, x.record.model ∈ r.modelNames)
      (hunknown : i.record.model ∉ r.modelNames) :
      Ending m r groups (.error (.mergeFailed (.unknownModel i.record.model)))
  /-- All models are registered. -/
  | merged (hknown : ∀ g ∈ groups, g.model ∈ m.registry.modelNames)
      (hitems : ∀ i ∈ itemsOf groups, i.record.model ∈ r.modelNames) (stats : MergeStats) :
      Ending m r groups (.ok stats)

/-! ## Groups -/

/-- The models of all groups are registered, or there is a first one that is not. -/
theorem unknownGroup?_cases (r : Registry) (groups : List ModelGroup) :
    (unknownGroup? r groups = none ∧ ∀ g ∈ groups, g.model ∈ r.modelNames)
      ∨ ∃ before g after, unknownGroup? r groups = some g.model
        ∧ groups = before ++ g :: after ∧ (∀ x ∈ before, x.model ∈ r.modelNames)
        ∧ g.model ∉ r.modelNames := by
  rw [unknownGroup?]
  cases hfind : groups.find? (fun g => !r.contains g.model) with
  | none =>
    refine .inl ⟨rfl, ?_⟩
    intro g hg
    have hcontains := List.find?_eq_none.1 hfind g hg
    exact Registry.contains_iff.1 (by simpa using hcontains)
  | some g =>
    obtain ⟨hunknown, before, after, rfl, hbefore⟩ := List.find?_eq_some_iff_append.1 hfind
    refine .inr ⟨before, g, after, rfl, rfl, ?_, ?_⟩
    · intro x hx
      exact Registry.contains_iff.1 (by simpa using hbefore x hx)
    · intro hmodel
      rw [Registry.contains_iff.2 hmodel] at hunknown
      cases hunknown

/-! ## Items -/

theorem applyItems_append (m : Merger) (before rest : List Item) (stats : MergeStats)
    (r : Registry) (db : Database) :
    m.applyItems (before ++ rest) stats r db
      = (m.applyItems before stats r db).bind fun next => m.applyItems rest next.1 r next.2 := by
  induction before generalizing stats db with
  | nil => rfl
  | cons i before ih =>
    rw [List.cons_append, applyItems, applyItems]
    cases m.applyItem i stats r db with
    | error e => rfl
    | ok applied => exact ih applied.1 applied.2

/-- An item is refused when the model of its record is not registered, live or not. -/
theorem applyItem_unknown (hhook : m.hook = none) {i : Item}
    (h : i.record.model ∉ r.modelNames) (stats : MergeStats) (db : Database) :
    m.applyItem i stats r db = .error (.unknownModel i.record.model) := by
  have hguard := Database.guardModel_error h
  have hupsert : m.upsert i stats r db = .error (.unknownModel i.record.model) := by
    simp [upsert, hhook, Database.save, hguard, bind, Except.bind]
  rw [applyItem]
  split
  · simp [Database.delete, hguard, bind, Except.bind]
  · split
    · exact hupsert
    · simp [Database.versionOf, hguard, bind, Except.bind]

/-- The pass fails at the first item whose model is not registered, whatever was written before
it. -/
theorem applyItems_unknown (hhook : m.hook = none) (hr : r.Separate)
    (htables : ∀ model ∈ r.modelNames, ∃ rows, db.rows model = .ok rows) {before after : List Item}
    {i : Item} (hbefore : ∀ x ∈ before, x.record.model ∈ r.modelNames)
    (hunknown : i.record.model ∉ r.modelNames) (stats : MergeStats) :
    m.applyItems (before ++ i :: after) stats r db
      = .error (.unknownModel i.record.model) := by
  obtain ⟨next, mid, happlied⟩ :=
    (applyItems_ok_iff (keepsKeys_none hhook) hr before stats db).2 fun x hx =>
      ⟨hbefore x hx, htables _ (hbefore x hx)⟩
  rw [applyItems_append, happlied]
  show m.applyItems (i :: after) next r mid = _
  rw [applyItems, applyItem_unknown hhook hunknown next mid]
  rfl

/-- Every merge without a hook ends in one of these ways. -/
theorem merge_ending (hhook : m.hook = none) (hr : r.Separate) (hreached : Store.Reached r db)
    (groups : List ModelGroup) : Ending m r groups (m.merge groups (Store.opened r db)).1 := by
  have htables : ∀ model ∈ r.modelNames, ∃ rows, db.rows model = .ok rows :=
    fun model hmodel => hreached.exists_rows hmodel (hr.stamp model hmodel)
  rcases unknownGroup?_cases m.registry groups with
    ⟨hnone, hknown⟩ | ⟨before, g, after, hsome, hsplit, hbefore, hunknown⟩
  · cases hfind : (itemsOf groups).find? (fun i => i.record.model ∉ r.modelNames) with
    | none =>
      have hitems : ∀ i ∈ itemsOf groups, i.record.model ∈ r.modelNames := by
        intro i hi
        simpa using List.find?_eq_none.1 hfind i hi
      obtain ⟨stats, s, hmerge⟩ := merge_of_writable (keepsKeys_none hhook) hr hnone
        fun i hi => ⟨hitems i hi, htables _ (hitems i hi)⟩
      rw [hmerge]
      exact .merged hknown hitems stats
    | some i =>
      obtain ⟨hunknown, before, after, hsplit, hbefore⟩ := List.find?_eq_some_iff_append.1 hfind
      have hbefore' : ∀ x ∈ before, x.record.model ∈ r.modelNames := by
        intro x hx
        simpa using hbefore x hx
      have hrefused : m.firstPass groups r db = .error (.unknownModel i.record.model) := by
        rw [firstPass, hsplit]
        exact applyItems_unknown hhook hr htables hbefore' (by simpa using hunknown) noStats
      simp only [merge, hnone, LocalStore.transact, Store.transact, hrefused]
      exact .unknownItem hknown hsplit hbefore' (by simpa using hunknown)
  · simp only [merge, hsome]
    exact .unknownGroup hsplit hbefore hunknown

/-- **All or nothing.** A merge that fails leaves the content of the store as it was. Without a
hook it fails at the first group, or else at the first item, whose model is not registered, and
for no other reason (`Ending`). -/
theorem merge_all_or_nothing (m : Merger) (groups : List ModelGroup) :
    (∀ (σ : Type) [LocalStore σ] [Transactional σ] (s s' : σ) (e : SyncError),
        m.merge groups s = (.error e, s') → Transactional.content s' = Transactional.content s)
      ∧ ∀ (r : Registry) (db : Database), r.Separate → Store.Reached r db →
        ∃ answer after, m.merge groups (Store.opened r db) = (answer, .opened r after)
          ∧ Store.Reached r after
          ∧ (∀ e, answer = .error e → after = db)
          ∧ (m.hook = none → Ending m r groups answer) := by
  constructor
  · intro σ _ _ s s' e h
    exact merge_error h
  · intro r db hr hreached
    obtain ⟨answer, after, hmerge, hafter⟩ := hreached.merge m groups
    refine ⟨answer, after, hmerge, hafter, ?_, ?_⟩
    · rintro e rfl
      have hsame : Store.opened r after = .opened r db := merge_error hmerge
      cases hsame
      rfl
    · intro hhook
      have hending := merge_ending hhook hr hreached groups
      rw [hmerge] at hending
      exact hending

/-! ### A ghost among stickers -/

namespace Stickers

/-- A sticker, one that is gone, and a record of a model that nobody knows. -/
def haunted : List ModelGroup :=
  [⟨"Sticker", [item (sticker "s1" "Dog") 7 false, item (sticker "s2" "Bird") 8 true,
    item ⟨"Ghost", "g1", Dict.empty⟩ 1 true, item (sticker "s3" "Fish") 1 false]⟩]

/-- What opening a store leaves of two stickers. -/
def reopened : Database := (content.prepare registry).1

theorem reached_reopened : Store.Reached registry reopened :=
  .opened (show Store.openOn registry content
    = (.ok (.opened registry reopened), reopened) from rfl)

/-- Nothing is written, though the ghost comes third. -/
theorem haunted_refused :
    registry.Separate ∧ merger.hook = none ∧ Store.Reached registry reopened
      ∧ merger.merge haunted (Store.opened registry reopened)
        = (.error (.mergeFailed (.unknownModel "Ghost")), .opened registry reopened) := by
  refine ⟨separate, rfl, reached_reopened, ?_⟩
  obtain ⟨answer, after, hmerge, -, hsame, hends⟩ :=
    (merge_all_or_nothing merger haunted).2 registry reopened separate reached_reopened
  have hgroups : ∀ g ∈ haunted, g.model ∈ merger.registry.modelNames := by decide
  have hghost : ∀ i ∈ itemsOf haunted, i.record.model ∉ registry.modelNames →
      i.record.model = "Ghost" := by decide
  rw [hmerge]
  cases hends rfl with
  | @unknownGroup before after g hsplit _ hunknown =>
    exact absurd (hgroups g (by rw [hsplit]; simp)) hunknown
  | @unknownItem _ before rest i hsplit _ hunknown =>
    rw [hghost i (by rw [hsplit]; simp) hunknown, hsame _ rfl]
  | merged _ hitems =>
    have hnotAll : ¬∀ i ∈ itemsOf haunted, i.record.model ∈ registry.modelNames := by decide
    exact absurd hitems hnotAll

end Stickers

end Replica.Merger
