/-
Replica.Proofs.Cycle.Atomicity — a cycle happens as a whole or not at all.

The main statement is `sync_atomic`. A cycle that fails, at whatever stage, leaves every
row, every stored version and every key of the settings as it was; a cycle that commits
writes the keys of the watermark and no others. It rests on the cases of `Stages`, on
transactions that are taken back when they fail, and on settings whose keys all accept
writes.

Settings in a database never refuse a write here, for failures of the database below them are
left out; settings in memory refuse the keys that were made read-only. Where no key refuses, the
last stage at which a cycle can fail, `unrecorded`, does not occur. Where one does, the rows are
merged by then and stay so, and the keys before the refused one are written.
-/
import Replica.Proofs.Cycle.Pagination
import Replica.Proofs.Cycle.Stages

namespace Replica.Replicator

variable {σ : Type} [LocalStore σ] [Transactional σ]

/-- What a cycle with a result made of a replica. -/
structure Atomic (before after : Replicator σ Settings) (result : Except SyncError SyncOutcome) :
    Prop where
  /-- A failure changes nothing and reports no outcome. -/
  failed : ∀ err, result = .error err →
    Transactional.content after.store = Transactional.content before.store
      ∧ after.settings = before.settings ∧ after.lastOutcome = none
  /-- The configured locale, or its absence, and the model set are on record. -/
  committed : ∀ outcome, result = .ok outcome →
    after.settings.values.get? SettingsKey.locale = before.engine.config.locale
      ∧ after.settings.values.get? SettingsKey.modelSetVersion
          = some before.engine.registry.version
      ∧ after.lastOutcome = some outcome
  /-- No other key is touched. -/
  frame : ∀ key ∉ SettingsKey.watermark,
    after.settings.values.get? key = before.settings.values.get? key
  idle : after.state = .idle

/-- A cycle that fails leaves the store and the settings as they were. -/
theorem run_failed {e : Engine} {now : Timestamp} {transport : Transport} {store : σ}
    {settings : Settings} (hsettings : settings.acceptsAll = true) {cycle : CycleRun σ Settings}
    (h : e.Stages now transport store settings cycle) {err : SyncError}
    (herr : cycle.result = .error err) :
    Transactional.content cycle.store = Transactional.content store
      ∧ cycle.settings = settings := by
  cases h with
  | notReady | unread | unfetched => exact ⟨rfl, rfl⟩
  | unmerged _ _ hmerge => exact ⟨Merger.merge_error hmerge, rfl⟩
  | @unrecorded w sent fetched stats err store' settings' _ _ _ hsave =>
    -- Settings that accept every write never come to this stage.
    rcases Settings.saveWatermark_cases (e.reached (e.nextSync now w fetched.groups)) settings with
      hok | ⟨e', s', -, hrefuses, -⟩
    · rw [hok] at hsave
      simp at hsave
    · rw [hsettings] at hrefuses
      simp at hrefuses
  | committed => simp at herr

/-- **Atomicity.** A cycle that fails changes nothing; one that commits records the locale
and the model set it ran under, and touches no key but those of the watermark. The settings
accept every write, as those in a database always do here, so that no cycle fails after its
merge has committed. -/
theorem sync_atomic (r : Replicator σ Settings) (hsettings : r.settings.acceptsAll = true)
    (now : Timestamp) (transport : Transport) :
    Atomic r (r.sync now transport).2 (r.sync now transport).1.result := by
  have hstages := r.engine.run_stages now transport r.store r.settings
  constructor
  · intro err herr
    have hresult : (r.engine.run now transport r.store r.settings).result = .error err := herr
    obtain ⟨hstore, hsame⟩ := run_failed hsettings hstages hresult
    exact ⟨hstore, hsame, by rw [sync]; simp [hresult, outcome?]⟩
  · intro outcome hok
    have hresult : (r.engine.run now transport r.store r.settings).result = .ok outcome := hok
    have hvalues : (r.sync now transport).2.settings.values
        = Settings.recorded r.settings.values (r.engine.reached outcome.newest) := by
      have hrecorded := hstages.recorded hresult
      exact (congrArg Settings.values hrecorded).trans (Settings.values_withValues _ _)
    refine ⟨?_, ?_, by rw [sync]; simp [hresult, outcome?]⟩
    · rw [hvalues, Settings.get?_recorded_locale]
      rfl
    · rw [hvalues]
      exact Settings.get?_recorded_modelSetVersion _ rfl
  · intro key hkey
    cases hresult : (r.engine.run now transport r.store r.settings).result with
    | error err =>
      have hsame := (run_failed hsettings hstages hresult).2
      exact congrArg (fun s => s.values.get? key) hsame
    | ok outcome =>
      have hrecorded := hstages.recorded hresult
      calc (r.sync now transport).2.settings.values.get? key
          = (r.settings.withValues (Settings.recorded r.settings.values
              (r.engine.reached outcome.newest))).values.get? key :=
            congrArg (fun s => s.values.get? key) hrecorded
        _ = r.settings.values.get? key := by
            rw [Settings.values_withValues, Settings.get?_recorded_other _ _ hkey]
  · rfl

/-! ### A full disk -/

/-- A replica of fonts and stickers whose store refuses the first transaction. -/
def diskFull : Replicator FaultyStore Settings :=
  start ⟨.default, Fetch.fontsAndStickers, none⟩
    (.plan (.opened Fetch.fontsAndStickers (Database.empty.prepare Fetch.fontsAndStickers).1) [0] [])
    (.memory Dict.empty [])

theorem diskFull_atomic :
    diskFull.settings.acceptsAll = true
      ∧ (diskFull.sync ⟨1000⟩ Fetch.twoPages).1.sent.length = 2
      ∧ outcome? (diskFull.sync ⟨1000⟩ Fetch.twoPages).1.result = none
      ∧ Atomic diskFull (diskFull.sync ⟨1000⟩ Fetch.twoPages).2
          (diskFull.sync ⟨1000⟩ Fetch.twoPages).1.result :=
  ⟨rfl, by decide +kernel, by decide +kernel, sync_atomic diskFull rfl ⟨1000⟩ Fetch.twoPages⟩

end Replica.Replicator
