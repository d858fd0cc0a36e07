/-
Replica.Proofs.Store.Transactions — what a transaction does to the content of a store.

A store may refuse transactions and look-ups. What it may not do is written down in two
classes: a transaction that fails is taken back (`Transactional`), and one that is carried out
is carried out on the content (`Faithful`). The store over a database is such a store, and so
is the one with planned failures.
-/
import Replica.Store.Basic

namespace Replica

/-! ## Stores that take back a failed transaction -/

/-- A store whose rows are untouched by a transaction that fails. -/
class Transactional (σ : Type) [LocalStore σ] where
  /-- The rows, as a store that never fails would keep them. -/
  content : σ → Store
  transact_error : ∀ {α : Type} {work : Transaction α} {s s' : σ} {e : StoreError},
    LocalStore.transact work s = (.error e, s') → content s' = content s

theorem Store.transact_error {α : Type} {work : Transaction α} {s s' : Store} {e : StoreError}
    (h : s.transact work = (.error e, s')) : s' = s := by
  cases s with
  | failed r reason =>
    rw [transact] at h
    exact (congrArg Prod.snd h).symm
  | opened r db =>
    rw [transact] at h
    split at h
    · simp at h
    · exact (congrArg Prod.snd h).symm

theorem FaultyStore.transact_error {α : Type} {work : Transaction α} {s s' : FaultyStore}
    {e : StoreError} (h : LocalStore.transact work s = (.error e, s')) : s'.store = s.store := by
  simp only [LocalStore.transact] at h
  split at h
  · cases h
    rfl
  · cases hinner : s.store.transact work with
    | mk answer store =>
      rw [hinner] at h
      cases h
      exact Store.transact_error hinner

instance : Transactional Store where
  content s := s
  transact_error h := Store.transact_error h

instance : Transactional FaultyStore where
  content s := s.store
  transact_error h := FaultyStore.transact_error h

/-- A transaction that took effect took effect on the content of a store that is open. -/
theorem Store.transact_ok {α : Type} {work : Transaction α} {s s' : Store} {a : α}
    (h : s.transact work = (.ok a, s')) :
    ∃ r db after, s = .opened r db ∧ work r db = .ok (a, after) ∧ s' = .opened r after := by
  cases s with
  | failed r reason => simp [Store.transact] at h
  | opened r db =>
    rw [Store.transact] at h
    split at h
    · rename_i after hwork
      cases h
      exact ⟨r, db, after, rfl, hwork, rfl⟩
    · simp at h

/-! ## Stores that carry out what they accept -/

/-- A transaction that takes effect takes effect on the content, and look-ups change
nothing. -/
class Faithful (σ : Type) [LocalStore σ] extends Transactional σ where
  transact_ok : ∀ {α : Type} {work : Transaction α} {s s' : σ} {a : α},
    LocalStore.transact work s = (.ok a, s') →
      (content s).transact work = (.ok a, content s')
  query_content : ∀ (model : String) (p : Predicate) (s : σ),
    content (LocalStore.query model p s).2 = content s

instance : Faithful Store where
  transact_ok h := h
  query_content _ _ _ := rfl

instance : Faithful FaultyStore where
  transact_ok := by
    intro α work s s' a h
    simp only [LocalStore.transact] at h
    split at h
    · simp at h
    · obtain ⟨hanswer, rfl⟩ := Prod.ext_iff.1 h
      exact Prod.ext hanswer rfl
  query_content := by
    intro model p s
    simp only [LocalStore.query]
    split <;> rfl

end Replica
