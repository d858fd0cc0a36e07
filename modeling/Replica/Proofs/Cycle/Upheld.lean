/-
Replica.Proofs.Cycle.Upheld — what every transaction upholds, a cycle upholds.

A cycle writes to its store in two transactions, one for each pass of its merge, and looks
records up in between. Both are work on rows, so neither touches the stamp of the database
(`keepsStamp_firstPass`, `keepsStamp_applyResolved`). So what holds of a store and is upheld by
look-ups and by transactions that leave the stamp alone (`Upheld`) still holds after a merge
and after a cycle, however it ends (`Engine.run_upheld`).
-/
import Replica.Proofs.Cycle.MergeWork
import Replica.Proofs.Cycle.Stages
import Replica.Proofs.Settings.ExtraVersion

namespace Replica

namespace Merger

/-! ## The two transactions -/

/-- The first pass leaves the stamp alone. -/
theorem keepsStamp_firstPass (m : Merger) (groups : List ModelGroup) :
    (m.firstPass groups).KeepsStamp := by
  rw [firstPass, ← Work.run_applyItems]
  exact Work.keepsStamp _

/-- The second pass leaves the stamp alone. -/
theorem keepsStamp_applyResolved (resolved : List Resolved) (count : Nat) :
    (applyResolved resolved count).KeepsStamp := by
  rw [← Work.run_applyResolved]
  exact Work.keepsStamp _

end Merger

/-! ## Merges and cycles -/

section

variable {σ τ : Type} [LocalStore σ] [SettingsStore τ]

/-- What holds of a store still holds after a look-up, and after a transaction that leaves the
stamp alone. -/
structure Upheld (P : σ → Prop) : Prop where
  transact : ∀ {α : Type} {work : Transaction α} {s : σ}, work.KeepsStamp → P s →
    P (LocalStore.transact work s).2
  query : ∀ {model : String} {p : Predicate} {s : σ}, P s → P (LocalStore.query model p s).2

variable {P : σ → Prop}

namespace Merger

theorem lookUp_upheld (h : Upheld P) {model : String} {p : List String → Predicate} :
    ∀ {pieces : List (List String)} {s : σ}, P s → P (lookUp model p pieces s).2
  | [], _, hs => hs
  | ids :: rest, s, hs => by
    have hquery : P (LocalStore.query model (p ids) s).2 := h.query hs
    rw [lookUp]
    split
    · rename_i e s' heq
      rw [heq] at hquery
      exact hquery
    · rename_i found s' heq
      rw [heq] at hquery
      have hrest : P (lookUp model p rest s').2 := lookUp_upheld h hquery
      split
      · rename_i e s'' hmore
        rw [hmore] at hrest
        exact hrest
      · rename_i more s'' hmore
        rw [hmore] at hrest
        exact hrest

theorem storedOverlays_upheld (h : Upheld P) (m : Merger) (job : OverlayJob) {s : σ} (hs : P s) :
    P (m.storedOverlays job s).2 := by
  rw [storedOverlays]
  split
  · exact hs
  · rename_i caps _
    have hlook : P (lookUp job.overlay (overlaysOf caps m.locale)
        (pieces lookupSize job.baseIds.length job.baseIds) s).2 := lookUp_upheld h hs
    split
    · rename_i found s' heq
      rw [heq] at hlook
      exact hlook
    · rename_i e s' heq
      rw [heq] at hlook
      exact hlook

theorem resolve_upheld (h : Upheld P) (m : Merger) : ∀ {jobs : List OverlayJob} {s : σ}, P s →
    P (m.resolve jobs s).2
  | [], _, hs => hs
  | job :: rest, s, hs => by
    have hrest : P (m.resolve rest (m.storedOverlays job s).2).2 :=
      resolve_upheld h m (storedOverlays_upheld h m job hs)
    exact hrest

theorem secondPass_upheld (h : Upheld P) (m : Merger) (jobs : List OverlayJob) {s : σ} (hs : P s) :
    P (m.secondPass jobs s).2 := by
  rw [secondPass]
  split
  · exact hs
  · have hresolved : P (m.resolve jobs s).2 := resolve_upheld h m hs
    have htransact := h.transact (keepsStamp_applyResolved (m.resolve jobs s).1 0) hresolved
    dsimp only
    split
    · rename_i count s' heq
      rw [heq] at htransact
      exact htransact
    · rename_i e s' heq
      rw [heq] at htransact
      exact htransact

/-- What transactions and look-ups uphold is upheld by a merge. -/
theorem merge_upheld (h : Upheld P) (m : Merger) (groups : List ModelGroup) {s : σ} (hs : P s) :
    P (m.merge groups s).2 := by
  have hfirst := h.transact (m.keepsStamp_firstPass groups) hs
  rw [merge]
  split
  · exact hs
  · split
    · rename_i e s' heq
      rw [heq] at hfirst
      exact hfirst
    · rename_i stats s' heq
      rw [heq] at hfirst
      exact secondPass_upheld h m _ hfirst

end Merger

/-- What transactions and look-ups uphold is upheld by a cycle. -/
theorem Engine.run_upheld (h : Upheld P) (e : Engine) (now : Timestamp) (transport : Transport)
    {store : σ} (settings : τ) (hs : P store) : P (e.run now transport store settings).store := by
  generalize hcycle : e.run now transport store settings = cycle
  have hstages := e.run_stages now transport store settings
  rw [hcycle] at hstages
  cases hstages with
  | notReady | unread | unfetched => exact hs
  | @unmerged w sent fetched err store' _ _ hmerge =>
    have hmerged := Merger.merge_upheld h e.merger fetched.groups hs
    rw [hmerge] at hmerged
    exact hmerged
  | @unrecorded w sent fetched stats err store' settings' _ _ hmerge _ =>
    have hmerged := Merger.merge_upheld h e.merger fetched.groups hs
    rw [hmerge] at hmerged
    exact hmerged
  | @committed w sent fetched stats store' settings' _ _ _ hmerge _ =>
    have hmerged := Merger.merge_upheld h e.merger fetched.groups hs
    rw [hmerge] at hmerged
    exact hmerged

end

/-- A cycle leaves the extra version as it was. -/
theorem Engine.extraVersion_run {σ : Type} [LocalStore σ] (e : Engine) (now : Timestamp)
    (transport : Transport) (store : σ) (settings : Settings) :
    KeyStore.extraVersion (e.run now transport store settings).settings
      = KeyStore.extraVersion settings := by
  generalize hcycle : e.run now transport store settings = cycle
  have hstages := e.run_stages now transport store settings
  rw [hcycle] at hstages
  cases hstages with
  | notReady | unread | unfetched | unmerged => rfl
  | @unrecorded w sent fetched stats err store' settings' _ _ _ hsave =>
    have hsaved := Settings.extraVersion_saveWatermark (e.reached (e.nextSync now w fetched.groups))
      settings
    rw [hsave] at hsaved
    exact hsaved
  | @committed w sent fetched stats store' settings' _ _ _ _ hsave =>
    have hsaved := Settings.extraVersion_saveWatermark (e.reached (e.nextSync now w fetched.groups))
      settings
    rw [hsave] at hsaved
    exact hsaved

end Replica
