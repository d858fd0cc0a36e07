/-
Replica.Proofs.Cycle.Stages — a cycle stage by stage.

A cycle asks whether the store is ready, reads the watermark, fetches, merges and records.
`Stages` lists how it ends when one of these fails and when all of them pass; every cycle
ends in one of these ways (`run_stages`). What a cycle preserves is proved by cases over
`Stages`, and `run` is not unfolded again.
-/
import Replica.Cycle.Run
import Replica.Proofs.Settings.Watermark
import Replica.Proofs.Store.Transactions

namespace Replica.Engine

variable {σ τ : Type} [LocalStore σ] [SettingsStore τ]

/-- The watermark of a committed cycle. -/
def reached (e : Engine) (newest : Timestamp) : Watermark :=
  ⟨newest, some e.registry.version, e.config.locale⟩

/-- How a cycle ends. -/
inductive Stages (e : Engine) (now : Timestamp) (transport : Transport) (store : σ) (settings : τ) :
    CycleRun σ τ → Prop
  /-- The store is not ready. -/
  | notReady {err : StoreError} (h : LocalStore.ready store = .error err) :
      Stages e now transport store settings ⟨.error (.storage err), [], store, settings⟩
  /-- The watermark cannot be read. -/
  | unread {err : StoreError} (h : KeyStore.watermark settings = .error err) :
      Stages e now transport store settings ⟨.error (.storage err), [], store, settings⟩
  /-- Not everything was fetched. -/
  | unfetched {w : Watermark} {sent : List Request} {err : SyncError}
      (hw : KeyStore.watermark settings = .ok w)
      (hfetch : Fetch.all transport e.registry e.config (e.inputs now w) = ⟨sent, .error err⟩) :
      Stages e now transport store settings ⟨.error err, sent, store, settings⟩
  /-- What was fetched cannot be written. -/
  | unmerged {w : Watermark} {sent : List Request} {fetched : Fetched} {err : SyncError} {store' : σ}
      (hw : KeyStore.watermark settings = .ok w)
      (hfetch : Fetch.all transport e.registry e.config (e.inputs now w) = ⟨sent, .ok fetched⟩)
      (hmerge : e.merger.merge fetched.groups store = (.error err, store')) :
      Stages e now transport store settings ⟨.error err, sent, store', settings⟩
  /-- The new watermark cannot be recorded. -/
  | unrecorded {w : Watermark} {sent : List Request} {fetched : Fetched} {stats : MergeStats}
      {err : StoreError} {store' : σ} {settings' : τ}
      (hw : KeyStore.watermark settings = .ok w)
      (hfetch : Fetch.all transport e.registry e.config (e.inputs now w) = ⟨sent, .ok fetched⟩)
      (hmerge : e.merger.merge fetched.groups store = (.ok stats, store'))
      (hsave : SettingsStore.saveWatermark (e.reached (e.nextSync now w fetched.groups)) settings
        = (.error err, settings')) :
      Stages e now transport store settings ⟨.error (.storage err), sent, store', settings'⟩
  /-- Everything passed. -/
  | committed {w : Watermark} {sent : List Request} {fetched : Fetched} {stats : MergeStats}
      {store' : σ} {settings' : τ}
      (hready : LocalStore.ready store = .ok ())
      (hw : KeyStore.watermark settings = .ok w)
      (hfetch : Fetch.all transport e.registry e.config (e.inputs now w) = ⟨sent, .ok fetched⟩)
      (hmerge : e.merger.merge fetched.groups store = (.ok stats, store'))
      (hsave : SettingsStore.saveWatermark (e.reached (e.nextSync now w fetched.groups)) settings
        = (.ok (), settings')) :
      Stages e now transport store settings
        ⟨.ok ⟨e.nextSync now w fetched.groups, stats.upserted, stats.deleted, stats.localized,
          fetched.pages, e.isExpired now w⟩, sent, store', settings'⟩

/-- Every cycle ends in one of these ways. -/
theorem run_stages (e : Engine) (now : Timestamp) (transport : Transport) (store : σ)
    (settings : τ) :
    Stages e now transport store settings (e.run now transport store settings) := by
  rw [run]
  split
  · rename_i err h
    exact .notReady h
  · rename_i hready
    split
    · rename_i err h
      exact .unread h
    · rename_i w hw
      split
      · rename_i sent err hfetch
        exact .unfetched hw hfetch
      · rename_i sent fetched hfetch
        rw [commit]
        split
        · rename_i err store' hmerge
          exact .unmerged hw hfetch hmerge
        · rename_i stats store' hmerge
          dsimp only
          split
          · rename_i err settings' hsave
            exact .unrecorded hw hfetch hmerge hsave
          · rename_i settings' hsave
            exact .committed hready hw hfetch hmerge hsave

/-! ## Settings after a cycle -/

variable {e : Engine} {now : Timestamp} {transport : Transport} {store : σ} {settings : Settings}
  {cycle : CycleRun σ Settings}

/-- A cycle that commits has recorded its watermark. -/
theorem Stages.recorded (h : e.Stages now transport store settings cycle) {outcome : SyncOutcome}
    (hok : cycle.result = .ok outcome) :
    cycle.settings
      = settings.withValues (Settings.recorded settings.values (e.reached outcome.newest)) := by
  cases h with
  | @committed w sent fetched stats store' settings' _ _ _ _ hsave =>
    cases hok
    rcases Settings.saveWatermark_cases (e.reached (e.nextSync now w fetched.groups)) settings with
      hcase | ⟨e', s', hcase, -, -⟩
    · rw [hcase] at hsave
      cases hsave
      rfl
    · rw [hcase] at hsave
      simp at hsave
  | _ => simp at hok

/-- A cycle that fails has left the time of the last sync as it was. -/
theorem Stages.lastSync_failed (h : e.Stages now transport store settings cycle) {err : SyncError}
    (herr : cycle.result = .error err) :
    KeyStore.lastSync cycle.settings = KeyStore.lastSync settings := by
  cases h with
  | notReady | unread | unfetched | unmerged => rfl
  | @unrecorded w sent fetched stats err store' settings' _ _ _ hsave =>
    rcases Settings.saveWatermark_cases (e.reached (e.nextSync now w fetched.groups)) settings with
      hcase | ⟨e', s', hcase, -, hsame⟩
    · rw [hcase] at hsave
      simp at hsave
    · rw [hcase] at hsave
      cases hsave
      exact Settings.lastSync_congr hsame
  | committed => simp at herr

end Replica.Engine

namespace Replica

/-- A merge that fails leaves every row as it was. -/
theorem Merger.merge_error {σ : Type} [LocalStore σ] [Transactional σ] {m : Merger}
    {groups : List ModelGroup} {s s' : σ} {e : SyncError} (h : m.merge groups s = (.error e, s')) :
    Transactional.content s' = Transactional.content s := by
  rw [merge] at h
  split at h
  · cases h
    rfl
  · split at h
    · rename_i err s'' hpass
      cases h
      exact Transactional.transact_error hpass
    · simp at h

end Replica
