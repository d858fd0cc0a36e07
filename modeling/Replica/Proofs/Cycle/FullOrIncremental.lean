/-
Replica.Proofs.Cycle.FullOrIncremental — from which time a cycle asks for each model.

A cycle asks a model for everything when the recorded time has expired, when another model set
is on record, or when the model is an overlay and another locale is on record; otherwise for
what was updated after the recorded time (`startFor`). Every request of the cycle, that for a
first page or for a further one, keeps to this time (`sent_asksFrom`).

A cycle that commits puts its model set and its locale on record. From then on no cycle changes
them, not even one that fails halfway through its writes (`Marks`, `Later.marks`), so that only
the age of the recorded time is left to decide. Main statement: `full_or_incremental`.
-/
import Replica.Proofs.Cycle.NeededRecords
import Replica.Proofs.Cycle.Resumption

namespace Replica.Engine

variable {e : Engine} {now : Timestamp} {w : Watermark}

/-! ## What requests ask for -/

/-- A request asks each of its models for the records that are needed after the model's time, by
the filter of the predicate that is built for them. -/
def AsksFrom (e : Engine) (start : ModelSchema → Timestamp) (q : Request) : Prop :=
  ∀ name ∈ q.models, ∃ m ∈ e.registry.models, m.name = name
    ∧ ∃ p, Selection.forModel e.registry e.config.syncExpressions name (start m)
        (max 0 (min e.config.grayRelease 16)) e.config.locale = .ok p
      ∧ q.filterOf name = some p.toFilter

/-- Every request of a cycle asks each model for what is needed after the model's time. -/
theorem sent_asksFrom {σ τ : Type} [LocalStore σ] [SettingsStore τ] (e : Engine)
    (now : Timestamp) (transport : Transport) (store : σ) (settings : τ) {q : Request}
    (hq : q ∈ (e.run now transport store settings).sent) :
    ∃ w, KeyStore.watermark settings = .ok w ∧ e.AsksFrom (e.startFor now w) q := by
  obtain ⟨w, hw, hfilters⟩ := (e.run_stages now transport store settings).filters_of_sent hq
  refine ⟨w, hw, ?_⟩
  intro name hname
  obtain ⟨m, hm, rfl, hfilter⟩ := hfilters name hname
  rw [e.predicate_startFor now w m] at hfilter
  exact ⟨m, hm, rfl, _, Selection.forModel_of_mem _ _ hm _ _ _, hfilter⟩

/-! ## What stays on record -/

/-- The settings tell the model set and the locale of an engine, and some time. -/
structure Marks (e : Engine) (settings : Settings) : Prop where
  version : settings.values.get? SettingsKey.modelSetVersion = some e.registry.version
  locale : settings.values.get? SettingsKey.locale = e.config.locale
  time : ∃ t, KeyStore.lastSync settings = .ok t

/-- Under the keys of the model set and of the locale an engine records its own, whatever the
time. -/
theorem mem_ofWatermark_reached {newest : Timestamp} {x : SettingsWrite}
    (hx : x ∈ SettingsWrite.ofWatermark (e.reached newest)) :
    (x.key = SettingsKey.modelSetVersion → x.value? = some e.registry.version)
      ∧ (x.key = SettingsKey.locale → x.value? = e.config.locale) := by
  have hwrites : SettingsWrite.ofWatermark (e.reached newest)
      = [.locale e.config.locale, .modelSetVersion e.registry.version, .lastSync newest] := rfl
  rw [hwrites] at hx
  have hlocale : SettingsKey.locale ≠ SettingsKey.modelSetVersion := by decide
  have hversion : SettingsKey.modelSetVersion ≠ SettingsKey.locale := by decide
  have htime : SettingsKey.lastSync ≠ SettingsKey.modelSetVersion := by decide
  have htime' : SettingsKey.lastSync ≠ SettingsKey.locale := by decide
  simp only [List.mem_cons, List.not_mem_nil, or_false] at hx
  rcases hx with rfl | rfl | rfl
  · simp [SettingsWrite.locale, hlocale]
  · exact ⟨fun _ => rfl, fun hkey => absurd hkey hversion⟩
  · simp [htime, htime']

theorem marks_of_watermark {settings : Settings} {t : Timestamp}
    (h : KeyStore.watermark settings = .ok (e.reached t)) : e.Marks settings := by
  obtain ⟨htime, hversion, hlocale⟩ := Settings.watermark_eq_ok.1 h
  exact ⟨hversion.symm, hlocale.symm, t, htime⟩

variable {σ : Type} [LocalStore σ] {transport : Transport} {store : σ} {settings : Settings}
  {cycle : CycleRun σ Settings}

/-- A cycle that commits leaves its marks. -/
theorem Stages.marks_committed (h : e.Stages now transport store settings cycle)
    (hnow : now.millis ≤ Timestamp.maxMillis) {outcome : SyncOutcome}
    (hok : cycle.result = .ok outcome) : e.Marks cycle.settings := by
  rw [h.recorded hok]
  exact marks_of_watermark
    (e.watermark_recorded settings (Nat.le_trans (h.newest_le hok) hnow))

/-- Whatever becomes of a cycle, the marks of its engine stay. -/
theorem Stages.marks (h : e.Stages now transport store settings cycle)
    (hnow : now.millis ≤ Timestamp.maxMillis) (hmarks : e.Marks settings) :
    e.Marks cycle.settings := by
  cases hresult : cycle.result with
  | ok outcome => exact h.marks_committed hnow hresult
  | error err =>
    have htime := h.lastSync_failed hresult
    cases h with
    | notReady | unread | unfetched | unmerged => exact hmarks
    | @unrecorded w sent fetched stats err store' settings' _ _ _ hsave =>
      have hsettings : (SettingsStore.saveWatermark
          (e.reached (e.nextSync now w fetched.groups)) settings).2 = settings' :=
        congrArg Prod.snd hsave
      refine ⟨?_, ?_, ?_⟩
      · rw [← hsettings]
        exact Settings.saveWatermark_keeps _ _ hmarks.version
          fun x hx => (mem_ofWatermark_reached hx).1
      · rw [← hsettings]
        exact Settings.saveWatermark_keeps _ _ hmarks.locale
          fun x hx => (mem_ofWatermark_reached hx).2
      · obtain ⟨t, ht⟩ := hmarks.time
        exact ⟨t, htime.trans ht⟩
    | committed => simp at hresult

/-- Settings that come of others when only cycles of an engine write to them. Each cycle has a
clock, a backend and a store of its own. -/
inductive Later (σ : Type) [LocalStore σ] (e : Engine) (first : Settings) : Settings → Prop
  | refl : Later σ e first first
  | cycle {settings : Settings} (h : Later σ e first settings) {now : Timestamp}
      (hnow : now.millis ≤ Timestamp.maxMillis) (transport : Transport) (store : σ) :
      Later σ e first (e.run now transport store settings).settings

/-- The marks stay on record. -/
theorem Later.marks {first settings : Settings} (h : e.Later σ first settings)
    (hmarks : e.Marks first) : e.Marks settings := by
  induction h with
  | refl => exact hmarks
  | cycle _ hnow transport store ih => exact (e.run_stages _ transport store _).marks hnow ih

theorem Marks.watermark {settings : Settings} (h : e.Marks settings) :
    ∃ t, KeyStore.watermark settings = .ok (e.reached t) := by
  obtain ⟨t, ht⟩ := h.time
  exact ⟨t, Settings.watermark_eq_ok.2 ⟨ht, h.version.symm, h.locale.symm⟩⟩

/-- **Full or incremental.** Every request of a cycle asks each of its models for what is needed
after the time that is on record, or for everything when that time has expired, when another
model set is on record, or when the model is an overlay of another locale. After a cycle that
committed, as long as only cycles of the engine write to the settings, its model set and its
locale stay on record, and only the age of the recorded time decides. -/
theorem full_or_incremental (e : Engine) :
    (∀ (τ : Type) [SettingsStore τ] (now : Timestamp) (transport : Transport) (store : σ)
        (settings : τ), ∀ q ∈ (e.run now transport store settings).sent,
          ∃ w, KeyStore.watermark settings = .ok w ∧ e.AsksFrom (e.startFor now w) q)
      ∧ ∀ (now : Timestamp) (transport : Transport) (store : σ) (settings : Settings)
          (outcome : SyncOutcome), now.millis ≤ Timestamp.maxMillis →
          (e.run now transport store settings).result = .ok outcome →
          ∀ later, e.Later σ (e.run now transport store settings).settings later →
            ∃ w, KeyStore.watermark later = .ok w ∧ ¬e.OtherModels w
              ∧ (∀ m, ¬e.OtherLocale w m)
              ∧ ∀ (now' : Timestamp) (transport' : Transport) (store' : σ),
                ∀ q ∈ (e.run now' transport' store' later).sent,
                  e.AsksFrom (fun _ => if e.Expired now' w then .zero else w.lastSync) q := by
  refine ⟨?_, ?_⟩
  · intro τ _ now transport store settings q hq
    exact e.sent_asksFrom now transport store settings hq
  · intro now transport store settings outcome hnow hok later hlater
    have hmarks := (e.run_stages now transport store settings).marks_committed hnow hok
    obtain ⟨t, ht⟩ := (hlater.marks hmarks).watermark
    refine ⟨e.reached t, ht, fun h => h.2 rfl, fun m h => h.2 rfl, ?_⟩
    intro now' transport' store' q hq
    obtain ⟨w, hw, hasks⟩ := e.sent_asksFrom now' transport' store' later hq
    cases ht.symm.trans hw
    have hstart : e.startFor now' (e.reached t)
        = fun _ => if e.Expired now' (e.reached t) then .zero else t :=
      funext (e.startFor_reached now' t)
    rw [hstart] at hasks
    exact hasks

/-! ### A replica that moves from German to French -/

/-- Fonts and their names in other languages. -/
def namedFonts : Registry where
  version := "v1"
  models := [.named "Font", .named "FontLocale"]
  words := by decide
  distinct := by decide

def french : Engine := ⟨SyncConfig.default.withLocale "fr", namedFonts, none⟩

/-- What a replica has on record that was synced at 500 in German. -/
def syncedInGerman : Watermark := ⟨⟨500⟩, some "v1", some "de"⟩

def germanSettings : Settings :=
  .memory (Settings.recorded Dict.empty syncedInGerman) []

def fontStore : Store := .opened namedFonts (Database.empty.prepare namedFonts).1

/-- A backend without records. -/
def noRecords : Transport := fun _ =>
  .ok (.object [("data", .object [("listFont", .object [("items", .arr [])]),
    ("listFontLocale", .object [("items", .arr [])])])])

/-- The settings after a French cycle and one whose backend does not answer. -/
def frenchSettings : Settings :=
  (french.run ⟨2000⟩ (fun _ => .error .timeout) fontStore
    (french.run ⟨1000⟩ noRecords fontStore germanSettings).settings).settings

/-- The first French cycle asks for the fonts that were updated after 500 and for all names of
fonts; from then on both are asked for after 500, until that time has expired. -/
theorem movedToFrench_asks :
    (∃ q ∈ (french.run ⟨1000⟩ noRecords fontStore germanSettings).sent,
        q.models = ["Font", "FontLocale"]
          ∧ french.AsksFrom (french.startFor ⟨1000⟩ syncedInGerman) q)
      ∧ french.startFor ⟨1000⟩ syncedInGerman (.named "Font") = ⟨500⟩
      ∧ french.startFor ⟨1000⟩ syncedInGerman (.named "FontLocale") = .zero
      ∧ (∃ outcome, (french.run ⟨1000⟩ noRecords fontStore germanSettings).result = .ok outcome)
      ∧ KeyStore.watermark frenchSettings = .ok (french.reached ⟨500⟩)
      ∧ ∀ (now : Timestamp) (transport : Transport) (store : Store),
          ∀ q ∈ (french.run now transport store frenchSettings).sent,
            french.AsksFrom (fun _ => if french.Expired now (french.reached ⟨500⟩) then .zero
              else ⟨500⟩) q := by
  have hgerman : KeyStore.watermark germanSettings = .ok syncedInGerman :=
    Settings.watermark_eq_ok.2
      ⟨Settings.lastSync_recorded (.memory Dict.empty []) (by decide), by decide, by decide⟩
  have hsent : (french.run ⟨1000⟩ noRecords fontStore germanSettings).sent.map Request.models
      = [["Font", "FontLocale"]] := by
    decide +kernel
  have hcommits : (french.run ⟨1000⟩ noRecords fontStore germanSettings).result.toBool = true := by
    decide +kernel
  have hlast : (KeyStore.watermark frenchSettings).toOption = some (french.reached ⟨500⟩) := by
    decide +kernel
  obtain ⟨hasks, hlater⟩ := full_or_incremental (σ := Store) french
  obtain ⟨q, hq, hmodels⟩ := List.mem_map.1 (hsent ▸ List.mem_singleton.2 rfl)
  obtain ⟨w, hw, hfrom⟩ := hasks Settings _ _ _ _ q hq
  cases hgerman.symm.trans hw
  refine ⟨⟨q, hq, hmodels, hfrom⟩, by decide, by decide, ?_⟩
  cases hresult : (french.run ⟨1000⟩ noRecords fontStore germanSettings).result with
  | error err =>
    rw [hresult] at hcommits
    cases hcommits
  | ok outcome =>
    have hfailed : french.Later Store
        (french.run ⟨1000⟩ noRecords fontStore germanSettings).settings frenchSettings :=
      Later.refl.cycle (by decide) _ _
    obtain ⟨w, hw, -, -, hfrom⟩ :=
      hlater ⟨1000⟩ noRecords fontStore germanSettings outcome (by decide) hresult _ hfailed
    rw [hw] at hlast
    cases Option.some.inj hlast
    exact ⟨⟨outcome, rfl⟩, hw, hfrom⟩

end Replica.Engine
