/-
Replica.Proofs.Settings.Agreement — places for settings agree and keep what is recorded.

Every call comes down to writes of single keys (`SettingsCall.writes`). A place that accepts
all writes answers every call and is left with these writes carried out in order
(`performAll_eq`), whether it records a watermark key by key or in one transaction. So the place in
memory and the one in a database hold the same values after the same calls, and all readings
follow from the values (`readsAlike_of_values`).

A place that refuses some writes may stop on the way through a watermark. It has not come to the
time of the last sync then, which is written last, or it has refused that very write; either way
the time reads as before (`lastSync_of_refused`). This needs only that a write leaves the other
keys alone.

Main statement: `settings_agree`.
-/
import Replica.Proofs.Settings.ExtraVersion

namespace Replica

/-! ## Calls -/

/-- A call that changes settings. -/
inductive SettingsCall where
  | put (key value : String)
  | drop (key : String)
  | lastSync (t : Timestamp)
  | locale (tag : Option String)
  | modelSetVersion (version : String)
  | extraVersion (version : Int)
  | watermark (w : Watermark)

namespace SettingsCall

/-- What a place answers to a call, and what it is afterwards. -/
def perform : SettingsCall → Settings → Except StoreError Unit × Settings
  | put key value, s => KeyStore.writeAll [.put key value] s
  | drop key, s => KeyStore.writeAll [.drop key] s
  | lastSync t, s => KeyStore.writeAll [.lastSync t] s
  | locale tag, s => KeyStore.writeAll [.locale tag] s
  | modelSetVersion version, s => KeyStore.writeAll [.modelSetVersion version] s
  | extraVersion version, s => KeyStore.writeAll [.extraVersion version] s
  | watermark w, s => SettingsStore.saveWatermark w s

/-- The writes that a call comes down to. -/
def writes : SettingsCall → List SettingsWrite
  | put key value => [.put key value]
  | drop key => [.drop key]
  | lastSync t => [.lastSync t]
  | locale tag => [.locale tag]
  | modelSetVersion version => [.modelSetVersion version]
  | extraVersion version => [.extraVersion version]
  | watermark w => SettingsWrite.ofWatermark w

/-- The keys that a call writes. -/
def keys (call : SettingsCall) : List String := call.writes.map SettingsWrite.key

end SettingsCall

/-- Make calls one after another, also after one that failed. -/
def performAll : List SettingsCall → Settings → List (Except StoreError Unit) × Settings
  | [], s => ([], s)
  | call :: rest, s =>
    let (answer, s') := call.perform s
    let (answers, s'') := performAll rest s'
    (answer :: answers, s'')

namespace Settings

theorem writeAll_accepted {s : Settings} (h : s.acceptsAll = true) (writes : List SettingsWrite) :
    KeyStore.writeAll writes s = (.ok (), s.withValues (writes.foldl written s.values)) := by
  rcases writeAll_cases writes s with hall | ⟨done, w, rest, e, -, hrefuses, -⟩
  · exact hall
  · rw [h] at hrefuses
    cases hrefuses

/-- A place that accepts all writes carries out those of a call. -/
theorem perform_eq {s : Settings} (h : s.acceptsAll = true) (call : SettingsCall) :
    call.perform s = (.ok (), s.withValues (call.writes.foldl written s.values)) := by
  cases call with
  | watermark w =>
    rcases saveWatermark_cases w s with hall | ⟨e, s', -, hrefuses, -⟩
    · exact hall
    · rw [h] at hrefuses
      cases hrefuses
  | put key value => exact writeAll_accepted h _
  | drop key => exact writeAll_accepted h _
  | lastSync t => exact writeAll_accepted h _
  | locale tag => exact writeAll_accepted h _
  | modelSetVersion version => exact writeAll_accepted h _
  | extraVersion version => exact writeAll_accepted h _

/-- The values of a place that accepts all writes, after some calls. -/
def valuesAfter (calls : List SettingsCall) (values : Dict String) : Dict String :=
  (calls.flatMap SettingsCall.writes).foldl written values

theorem valuesAfter_append (calls more : List SettingsCall) (values : Dict String) :
    valuesAfter (calls ++ more) values = valuesAfter more (valuesAfter calls values) := by
  simp [valuesAfter]

/-- Such a place answers every call and carries out the writes of all of them. -/
theorem performAll_eq {s : Settings} (h : s.acceptsAll = true) (calls : List SettingsCall) :
    performAll calls s
      = (calls.map fun _ => .ok (), s.withValues (valuesAfter calls s.values)) := by
  induction calls generalizing s with
  | nil =>
    show ([], s) = ([], s.withValues s.values)
    rw [withValues_self]
  | cons call rest ih =>
    have hnext := (acceptsAll_withValues s (call.writes.foldl written s.values)).trans h
    rw [performAll, perform_eq h]
    simp only [ih hnext, withValues_withValues, values_withValues, List.map_cons]
    rw [valuesAfter, valuesAfter, List.flatMap_cons, List.foldl_append]

/-! ## Readings -/

/-- No reading tells two places apart. -/
structure ReadsAlike (s s' : Settings) : Prop where
  raw : ∀ key, KeyStore.get s key = KeyStore.get s' key
  lastSync : KeyStore.lastSync s = KeyStore.lastSync s'
  locale : KeyStore.locale s = KeyStore.locale s'
  modelSetVersion : KeyStore.modelSetVersion s = KeyStore.modelSetVersion s'
  extraVersion : KeyStore.extraVersion s = KeyStore.extraVersion s'
  watermark : KeyStore.watermark s = KeyStore.watermark s'

theorem readsAlike_of_values {s s' : Settings} (h : s.values = s'.values) : ReadsAlike s s' := by
  have hraw : ∀ key, KeyStore.get s key = KeyStore.get s' key := by
    intro key
    exact congrArg (fun values : Dict String => Except.ok (values.get? key)) h
  have hlast : KeyStore.lastSync s = KeyStore.lastSync s' := lastSync_congr (by rw [h])
  have hversion : KeyStore.modelSetVersion s = KeyStore.modelSetVersion s' := hraw _
  have hlocale : KeyStore.locale s = KeyStore.locale s' := hraw _
  refine ⟨hraw, hlast, hlocale, hversion, extraVersion_congr (by rw [h]), ?_⟩
  rw [KeyStore.watermark, KeyStore.watermark, hlast, hversion, hlocale]

/-! ## What is kept -/

/-- A place returns what is recorded in it, until it is written again. -/
structure Keeps (start : Settings) : Prop where
  /-- A watermark, with the recorded version if it has none. -/
  watermark : ∀ calls w, w.lastSync.millis ≤ Timestamp.maxMillis →
    ∃ version, KeyStore.modelSetVersion (performAll calls start).2 = .ok version ∧
      KeyStore.watermark (performAll (calls ++ [.watermark w]) start).2
        = .ok { w with modelSetVersion := w.modelSetVersion.or version }
  /-- Every time of 64 bits. -/
  lastSync : ∀ earlier t later, t.millis ≤ Timestamp.maxMillis →
    (∀ call ∈ later, SettingsKey.lastSync ∉ SettingsCall.keys call) →
      KeyStore.lastSync (performAll (earlier ++ .lastSync t :: later) start).2 = .ok t
  /-- Every extra version of 64 bits with a sign. -/
  extraVersion : ∀ earlier version later, -((Text.maxSigned64 + 1 : Nat) : Int) ≤ version →
    version ≤ ((Text.maxSigned64 : Nat) : Int) →
    (∀ call ∈ later, SettingsKey.extraVersion ∉ SettingsCall.keys call) →
      KeyStore.extraVersion (performAll (earlier ++ .extraVersion version :: later) start).2
        = .ok version

/-- A value stays under its key while no call writes the key. -/
theorem get?_valuesAfter {key : String} {calls : List SettingsCall} (values : Dict String)
    (h : ∀ call ∈ calls, key ∉ SettingsCall.keys call) :
    (valuesAfter calls values).get? key = values.get? key := by
  refine get?_foldl_written _ values fun w hw hkey => ?_
  obtain ⟨call, hcall, hwrite⟩ := List.mem_flatMap.1 hw
  exact h call hcall (hkey ▸ List.mem_map_of_mem hwrite)

/-- A watermark without a version leaves the recorded one alone. -/
theorem get?_recorded_version (values : Dict String) (w : Watermark) :
    (recorded values w).get? SettingsKey.modelSetVersion
      = w.modelSetVersion.or (values.get? SettingsKey.modelSetVersion) := by
  cases hversion : w.modelSetVersion with
  | some version =>
    rw [get?_recorded_modelSetVersion values hversion]
    rfl
  | none =>
    refine get?_foldl_written _ values fun x hx => ?_
    have hwrites : SettingsWrite.ofWatermark w = [.locale w.locale, .lastSync w.lastSync] := by
      rw [SettingsWrite.ofWatermark, hversion]
      rfl
    rw [hwrites] at hx
    simp only [List.mem_cons, List.not_mem_nil, or_false] at hx
    rcases hx with rfl | rfl
    · rw [SettingsWrite.locale, SettingsWrite.key_ofOption]
      decide
    · rw [SettingsWrite.key_lastSync]
      decide

theorem keeps_of_acceptsAll {s : Settings} (h : s.acceptsAll = true) : Keeps s := by
  constructor
  · intro calls w hw
    refine ⟨_, rfl, ?_⟩
    have hlast : valuesAfter [.watermark w] (valuesAfter calls s.values)
        = recorded (valuesAfter calls s.values) w := by
      rw [valuesAfter, List.flatMap_singleton]
      rfl
    rw [performAll_eq h, performAll_eq h, valuesAfter_append, hlast]
    refine watermark_eq_ok.2 ⟨?_, ?_, ?_⟩
    · exact lastSync_of_text hw (by rw [values_withValues, get?_recorded_lastSync])
    · rw [values_withValues, values_withValues, get?_recorded_version]
    · show w.locale = (s.withValues (recorded _ w)).values.get? SettingsKey.locale
      rw [values_withValues, get?_recorded_locale]
  · intro earlier t later ht hlater
    refine lastSync_of_text ht ?_
    rw [performAll_eq h, valuesAfter_append, values_withValues]
    show (valuesAfter later (written (valuesAfter earlier s.values) (.lastSync t))).get? _ = _
    rw [get?_valuesAfter _ hlater, get?_written, if_pos (SettingsWrite.key_lastSync t)]
    rfl
  · intro earlier version later hlow hhigh hlater
    refine extraVersion_recorded hlow hhigh ?_
    rw [performAll_eq h, valuesAfter_append, values_withValues]
    show (valuesAfter later (written (valuesAfter earlier s.values) (.extraVersion version))).get? _
      = _
    rw [get?_valuesAfter _ hlater, get?_written]
    exact if_pos rfl

end Settings

/-! ## Refused writes -/

/-- A place for settings that records a watermark key by key. Of its writes it is known only that
they leave the other keys alone; each of them may be refused. -/
structure WrittenByKey (σ : Type) [SettingsStore σ] : Prop where
  keyByKey : ∀ (w : Watermark) (s : σ),
    SettingsStore.saveWatermark w s = KeyStore.writeAll (SettingsWrite.ofWatermark w) s
  apart : ∀ (w : SettingsWrite) (s s' : σ) (key : String), KeyStore.write w s = .ok s' →
    key ≠ w.key → KeyStore.get s' key = KeyStore.get s key

namespace KeyStore

theorem lastSync_congr {σ : Type} [KeyStore σ] {s s' : σ}
    (h : get s' SettingsKey.lastSync = get s SettingsKey.lastSync) : lastSync s' = lastSync s := by
  rw [lastSync, lastSync, h]

/-- Writes stop at the first that is refused; a key that none of those before it writes is as it
was. -/
theorem writeAll_refused {σ : Type} [SettingsStore σ] (hplace : WrittenByKey σ) {e : StoreError} :
    ∀ {writes : List SettingsWrite} {s s' : σ}, writeAll writes s = (.error e, s') →
      ∃ done w rest, writes = done ++ w :: rest ∧
        ∀ key, (∀ x ∈ done, x.key ≠ key) → get s' key = get s key
  | [], s, s', h => by
    rw [writeAll] at h
    cases h
  | w :: rest, s, s', h => by
    rw [writeAll] at h
    split at h
    · rename_i next hnext
      obtain ⟨done, x, later, rfl, hkept⟩ := writeAll_refused hplace h
      refine ⟨w :: done, x, later, rfl, fun key hkeys => ?_⟩
      have hfirst := hkeys w (List.mem_cons_self ..)
      rw [hkept key fun y hy => hkeys y (List.mem_cons_of_mem w hy)]
      exact hplace.apart w s next key hnext (Ne.symm hfirst)
    · cases h
      exact ⟨[], w, rest, rfl, fun _ _ => rfl⟩

/-- If a watermark is refused, the time of the last sync reads as before. -/
theorem lastSync_of_refused {σ : Type} [SettingsStore σ] (hplace : WrittenByKey σ) {w : Watermark}
    {s s' : σ} {e : StoreError} (h : SettingsStore.saveWatermark w s = (.error e, s')) :
    get s' SettingsKey.lastSync = get s SettingsKey.lastSync := by
  rw [hplace.keyByKey] at h
  obtain ⟨done, x, rest, hsplit, hkept⟩ := writeAll_refused hplace h
  exact hkept _ (Settings.key_ne_lastSync hsplit)

end KeyStore

/-! ## Agreement -/

/-- The place in memory and the one in a database answer all calls alike, and after them no
reading tells them apart; both keep what is recorded. A place that records a watermark key by
key and refuses it reads the time of the last sync as before, whatever else the refused write has
left behind. -/
theorem settings_agree (values : Dict String) :
    (∀ calls : List SettingsCall,
      (performAll calls (.memory values [])).1 = (performAll calls (.database values)).1 ∧
      Settings.ReadsAlike (performAll calls (.memory values [])).2
        (performAll calls (.database values)).2) ∧
    (∀ s ∈ [Settings.memory values [], Settings.database values], s.Keeps) ∧
    (∀ (σ : Type) [SettingsStore σ], WrittenByKey σ → ∀ (w : Watermark) (s s' : σ) (e : StoreError),
      SettingsStore.saveWatermark w s = (.error e, s') →
      ∀ left : σ, (∀ key, KeyStore.get left key = KeyStore.get s' key) →
        KeyStore.lastSync left = KeyStore.lastSync s) := by
  have hmemory : (Settings.memory values []).acceptsAll = true := rfl
  have hdatabase : (Settings.database values).acceptsAll = true := rfl
  refine ⟨?_, ?_, ?_⟩
  · intro calls
    rw [Settings.performAll_eq hmemory, Settings.performAll_eq hdatabase]
    exact ⟨rfl, Settings.readsAlike_of_values rfl⟩
  · intro s hs
    simp only [List.mem_cons, List.not_mem_nil, or_false] at hs
    rcases hs with rfl | rfl
    · exact Settings.keeps_of_acceptsAll hmemory
    · exact Settings.keeps_of_acceptsAll hdatabase
  · intro σ _ hplace w s s' e h left hleft
    exact KeyStore.lastSync_congr ((hleft _).trans (KeyStore.lastSync_of_refused hplace h))

/-- Either place for settings could as well record a watermark key by key. -/
theorem Settings.writtenByKey : WrittenByKey Settings where
  keyByKey := by
    intro w s
    cases s with
    | memory values readOnly => rfl
    | database values => exact (writeAll_accepted (s := .database values) rfl _).symm
  apart := by
    intro w s s' key hwrite hne
    have hget := get?_write hwrite key
    rw [if_neg hne.symm] at hget
    exact congrArg Except.ok hget

/-- A place in memory that refuses the version of the model set. -/
def sealedVersion (values : Dict String) : Settings :=
  .memory values [SettingsKey.modelSetVersion]

/-- The version is refused once the locale is recorded; the greatest time is kept while another
key is dropped. -/
theorem sealedVersion_keeps :
    (∃ e values, SettingsStore.saveWatermark ⟨⟨9⟩, some "v2", some "de"⟩
        (sealedVersion (Dict.ofEntries [(SettingsKey.lastSync, "5")]))
          = (.error e, sealedVersion values) ∧
      KeyStore.locale (sealedVersion values) = .ok (some "de") ∧
      KeyStore.lastSync (sealedVersion values) = .ok ⟨5⟩) ∧
    KeyStore.lastSync (performAll [.put SettingsKey.lastSync "soon",
        .lastSync ⟨Timestamp.maxMillis⟩, .drop SettingsKey.locale] (.database Dict.empty)).2
      = .ok ⟨Timestamp.maxMillis⟩ := by
  obtain ⟨-, hkeeps, hrefused⟩ := settings_agree Dict.empty
  have hsaved : SettingsStore.saveWatermark ⟨⟨9⟩, some "v2", some "de"⟩
        (sealedVersion (Dict.ofEntries [(SettingsKey.lastSync, "5")]))
      = (.error (.invalidData (.readOnlyKey SettingsKey.modelSetVersion)),
          sealedVersion
            (Dict.ofEntries [(SettingsKey.lastSync, "5"), (SettingsKey.locale, "de")])) := rfl
  have hbefore : KeyStore.lastSync (sealedVersion (Dict.ofEntries [(SettingsKey.lastSync, "5")]))
      = .ok ⟨5⟩ := Settings.lastSync_of_text (by decide) (by decide)
  refine ⟨⟨_, _, hsaved, rfl, ?_⟩, ?_⟩
  · exact (hrefused Settings Settings.writtenByKey _ _ _ _ hsaved _ fun _ => rfl).trans hbefore
  · exact (hkeeps (.database Dict.empty) (by simp)).lastSync [.put SettingsKey.lastSync "soon"] _
      [.drop SettingsKey.locale] (Nat.le_refl _) (by decide)

end Replica
