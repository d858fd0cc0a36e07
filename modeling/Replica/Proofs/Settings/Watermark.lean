/-
Replica.Proofs.Settings.Watermark — what recording a watermark leaves in the settings.

Recording a watermark writes three keys (`saveWatermark_cases`). Either all of them accept,
and then the three parts are read back as they were recorded and no other key changes, or
some key refuses; then the time of the last sync, which is written last, is as it was.
-/
import Replica.Proofs.Text.Integer
import Replica.Settings.Basic

namespace Replica

namespace SettingsKey

/-- The keys of the parts of a watermark. -/
def watermark : List String := [lastSync, locale, modelSetVersion]

end SettingsKey

/-! ## Single writes -/

namespace SettingsWrite

/-- What a write leaves under its key. -/
def value? : SettingsWrite → Option String
  | put _ value => some value
  | drop _ => none

@[simp] theorem key_ofOption (key : String) (value : Option String) :
    (ofOption key value).key = key := by
  cases value <;> rfl

@[simp] theorem value?_ofOption (key : String) (value : Option String) :
    (ofOption key value).value? = value := by
  cases value <;> rfl

@[simp] theorem key_lastSync (t : Timestamp) : (lastSync t).key = SettingsKey.lastSync := rfl

@[simp] theorem key_modelSetVersion (version : String) :
    (modelSetVersion version).key = SettingsKey.modelSetVersion := rfl

/-- A watermark is written under its own keys. -/
theorem key_mem_of_mem_ofWatermark {w : Watermark} {write : SettingsWrite}
    (h : write ∈ ofWatermark w) : write.key ∈ SettingsKey.watermark := by
  rcases List.mem_append.1 h with h | h
  · rcases List.mem_cons.1 h with rfl | h
    · simp [locale, SettingsKey.watermark]
    · obtain ⟨version, -, rfl⟩ := by simpa using h
      simp [SettingsKey.watermark]
  · rw [List.mem_singleton.1 h]
    simp [SettingsKey.watermark]

end SettingsWrite

namespace Settings

@[simp] theorem get?_written (values : Dict String) (write : SettingsWrite) (key : String) :
    (written values write).get? key
      = if write.key = key then write.value? else values.get? key := by
  cases write with
  | put k v => exact Dict.get?_insert values k v key
  | drop k => exact Dict.get?_erase values k key

/-- Writes that leave the value of a key leave it however many of them are carried out. -/
theorem get?_foldl_written_of_same {key : String} {value : Option String} :
    ∀ (writes : List SettingsWrite) (values : Dict String), values.get? key = value →
      (∀ w ∈ writes, w.key = key → w.value? = value) →
      (writes.foldl written values).get? key = value
  | [], _, hvalue, _ => hvalue
  | w :: rest, values, hvalue, hsame => by
    have hfirst : (written values w).get? key = value := by
      rw [get?_written]
      split
      · rename_i hkey
        exact hsame w (List.mem_cons_self ..) hkey
      · exact hvalue
    exact get?_foldl_written_of_same rest _ hfirst fun x hx => hsame x (List.mem_cons_of_mem _ hx)

theorem get?_foldl_written {key : String} (writes : List SettingsWrite) (values : Dict String)
    (h : ∀ w ∈ writes, w.key ≠ key) : (writes.foldl written values).get? key = values.get? key :=
  get?_foldl_written_of_same writes values rfl fun w hw hkey => absurd hkey (h w hw)

/-! ## A recorded watermark -/

/-- The values once a watermark is recorded. -/
def recorded (values : Dict String) (w : Watermark) : Dict String :=
  (SettingsWrite.ofWatermark w).foldl written values

theorem recorded_eq (values : Dict String) (w : Watermark) :
    recorded values w
      = written ((w.modelSetVersion.map SettingsWrite.modelSetVersion).toList.foldl written
          (written values (.locale w.locale))) (.lastSync w.lastSync) := by
  rw [recorded, SettingsWrite.ofWatermark, List.foldl_append, List.foldl_cons]
  rfl

theorem get?_recorded_lastSync (values : Dict String) (w : Watermark) :
    (recorded values w).get? SettingsKey.lastSync = some (toString w.lastSync.millis) := by
  rw [recorded_eq, get?_written, if_pos (SettingsWrite.key_lastSync _)]
  rfl

theorem get?_recorded_locale (values : Dict String) (w : Watermark) :
    (recorded values w).get? SettingsKey.locale = w.locale := by
  have hversion : ∀ x ∈ (w.modelSetVersion.map SettingsWrite.modelSetVersion).toList,
      x.key ≠ SettingsKey.locale := by
    intro x hx
    obtain ⟨version, -, rfl⟩ := by simpa using hx
    rw [SettingsWrite.key_modelSetVersion]
    decide
  have hlast : (SettingsWrite.lastSync w.lastSync).key ≠ SettingsKey.locale := by
    rw [SettingsWrite.key_lastSync]
    decide
  rw [recorded_eq, get?_written, if_neg hlast, get?_foldl_written _ _ hversion,
    get?_written, SettingsWrite.locale, if_pos (SettingsWrite.key_ofOption ..),
    SettingsWrite.value?_ofOption]

theorem get?_recorded_modelSetVersion (values : Dict String) {w : Watermark} {version : String}
    (h : w.modelSetVersion = some version) :
    (recorded values w).get? SettingsKey.modelSetVersion = some version := by
  have hlast : (SettingsWrite.lastSync w.lastSync).key ≠ SettingsKey.modelSetVersion := by
    rw [SettingsWrite.key_lastSync]
    decide
  rw [recorded_eq, get?_written, if_neg hlast, h, Option.map_some, Option.toList_some,
    List.foldl_cons, List.foldl_nil, get?_written,
    if_pos (SettingsWrite.key_modelSetVersion version)]
  rfl

theorem get?_recorded_other (values : Dict String) (w : Watermark) {key : String}
    (h : key ∉ SettingsKey.watermark) : (recorded values w).get? key = values.get? key :=
  get?_foldl_written _ _ fun _ hx e => h (e ▸ SettingsWrite.key_mem_of_mem_ofWatermark hx)

/-! ## Recording -/

/-- Whether no key refuses writes. -/
def acceptsAll : Settings → Bool
  | memory _ readOnly => readOnly.isEmpty
  | database _ => true

/-- The same place for settings with other values. -/
def withValues : Settings → Dict String → Settings
  | memory _ readOnly, values => memory values readOnly
  | database _, values => database values

@[simp] theorem values_withValues (s : Settings) (values : Dict String) :
    (s.withValues values).values = values := by
  cases s <;> rfl

@[simp] theorem acceptsAll_withValues (s : Settings) (values : Dict String) :
    (s.withValues values).acceptsAll = s.acceptsAll := by
  cases s <;> rfl

@[simp] theorem withValues_withValues (s : Settings) (first second : Dict String) :
    (s.withValues first).withValues second = s.withValues second := by
  cases s <;> rfl

theorem withValues_self (s : Settings) : s.withValues s.values = s := by
  cases s <;> rfl

theorem write_cases (w : SettingsWrite) (s : Settings) :
    KeyStore.write w s = .ok (s.withValues (written s.values w))
      ∨ ∃ e, KeyStore.write w s = .error e ∧ s.acceptsAll = false := by
  cases s with
  | database values => exact .inl rfl
  | memory values readOnly =>
    by_cases h : readOnly.contains w.key = true
    · refine .inr ⟨_, if_pos h, ?_⟩
      cases readOnly with
      | nil => simp at h
      | cons key rest => rfl
    · exact .inl (if_neg h)

/-- Writes are carried out up to the first that is refused. -/
theorem writeAll_cases : ∀ (writes : List SettingsWrite) (s : Settings),
    KeyStore.writeAll writes s = (.ok (), s.withValues (writes.foldl written s.values))
      ∨ ∃ done w rest e, writes = done ++ w :: rest ∧ s.acceptsAll = false
          ∧ KeyStore.writeAll writes s
            = (.error e, s.withValues (done.foldl written s.values))
  | [], s => .inl (by rw [KeyStore.writeAll, List.foldl_nil, withValues_self])
  | w :: writes, s => by
    rcases write_cases w s with hw | ⟨e, hw, hs⟩
    · rw [KeyStore.writeAll, hw]
      rcases writeAll_cases writes (s.withValues (written s.values w)) with
        h | ⟨done, x, rest, e, rfl, hs, h⟩
      · exact .inl (by simpa using h)
      · exact .inr ⟨w :: done, x, rest, e, rfl, by simpa using hs, by simpa using h⟩
    · refine .inr ⟨[], w, writes, e, rfl, hs, ?_⟩
      rw [KeyStore.writeAll, hw, List.foldl_nil, withValues_self]

theorem key_ne_lastSync {w : Watermark} {done rest : List SettingsWrite} {x : SettingsWrite}
    (h : SettingsWrite.ofWatermark w = done ++ x :: rest) :
    ∀ y ∈ done, y.key ≠ SettingsKey.lastSync := by
  have hlast : done <+: (SettingsWrite.ofWatermark w).dropLast := by
    rw [h, List.dropLast_append_of_ne_nil (by simp)]
    exact List.prefix_append _ _
  intro y hy
  have hmem := hlast.subset hy
  rw [SettingsWrite.ofWatermark, List.dropLast_append_of_ne_nil (by simp)] at hmem
  rcases List.mem_append.1 hmem with hmem | hmem
  · rcases List.mem_cons.1 hmem with rfl | hmem
    · rw [SettingsWrite.locale, SettingsWrite.key_ofOption]
      decide
    · obtain ⟨version, -, rfl⟩ := by simpa using hmem
      rw [SettingsWrite.key_modelSetVersion]
      decide
  · simp at hmem

/-- A watermark is recorded as a whole, or some key refuses and the time of the last sync
stays as it was. -/
theorem saveWatermark_cases (w : Watermark) (s : Settings) :
    SettingsStore.saveWatermark w s = (.ok (), s.withValues (recorded s.values w))
      ∨ ∃ e s', SettingsStore.saveWatermark w s = (.error e, s') ∧ s.acceptsAll = false
          ∧ s'.values.get? SettingsKey.lastSync = s.values.get? SettingsKey.lastSync := by
  cases s with
  | database values => exact .inl rfl
  | memory values readOnly =>
    rcases writeAll_cases (SettingsWrite.ofWatermark w) (memory values readOnly) with
      h | ⟨done, x, rest, e, hsplit, hs, h⟩
    · exact .inl h
    · refine .inr ⟨e, _, h, hs, ?_⟩
      rw [values_withValues, get?_foldl_written _ _ (key_ne_lastSync hsplit)]

/-- A key under which a watermark has the value that is on record keeps it, whether all writes
are carried out or some key refuses. -/
theorem saveWatermark_keeps (w : Watermark) (s : Settings) {key : String} {value : Option String}
    (hvalue : s.values.get? key = value)
    (hsame : ∀ x ∈ SettingsWrite.ofWatermark w, x.key = key → x.value? = value) :
    (SettingsStore.saveWatermark w s).2.values.get? key = value := by
  cases s with
  | database values => exact get?_foldl_written_of_same _ values hvalue hsame
  | memory values readOnly =>
    rcases writeAll_cases (SettingsWrite.ofWatermark w) (memory values readOnly) with
      h | ⟨done, x, rest, e, hsplit, -, h⟩
    · have hsaved : SettingsStore.saveWatermark w (memory values readOnly)
          = (.ok (), (memory values readOnly).withValues (recorded values w)) := h
      rw [hsaved, values_withValues]
      exact get?_foldl_written_of_same _ values hvalue hsame
    · have hsaved : SettingsStore.saveWatermark w (memory values readOnly)
          = (.error e, (memory values readOnly).withValues (done.foldl written values)) := h
      rw [hsaved, values_withValues]
      refine get?_foldl_written_of_same done values hvalue fun y hy => hsame y ?_
      rw [hsplit]
      exact List.mem_append_left _ hy

/-! ## Reading back -/

theorem lastSync_congr {s s' : Settings}
    (h : s'.values.get? SettingsKey.lastSync = s.values.get? SettingsKey.lastSync) :
    KeyStore.lastSync s' = KeyStore.lastSync s := by
  have hget : KeyStore.get s' SettingsKey.lastSync = KeyStore.get s SettingsKey.lastSync :=
    congrArg Except.ok h
  rw [KeyStore.lastSync, KeyStore.lastSync, hget]

/-- A time that is on record is read back. -/
theorem lastSync_of_text {s : Settings} {t : Timestamp} (ht : t.millis ≤ Timestamp.maxMillis)
    (h : s.values.get? SettingsKey.lastSync = some (toString t.millis)) :
    KeyStore.lastSync s = .ok t := by
  have hget : KeyStore.get s SettingsKey.lastSync = .ok (some (toString t.millis)) :=
    congrArg Except.ok h
  rw [KeyStore.lastSync, hget]
  simp only [bind, Except.bind]
  rw [Text.readUnsigned64_toString ht]
  rfl

theorem lastSync_recorded (s : Settings) {w : Watermark} (h : w.lastSync.millis ≤ Timestamp.maxMillis) :
    KeyStore.lastSync (s.withValues (recorded s.values w)) = .ok w.lastSync :=
  lastSync_of_text h (by rw [values_withValues, get?_recorded_lastSync])

/-- The parts of a watermark are read each from its own key. -/
theorem watermark_eq_ok {s : Settings} {w : Watermark} :
    KeyStore.watermark s = .ok w ↔
      KeyStore.lastSync s = .ok w.lastSync
        ∧ w.modelSetVersion = s.values.get? SettingsKey.modelSetVersion
        ∧ w.locale = s.values.get? SettingsKey.locale := by
  obtain ⟨t, version, tag⟩ := w
  have hversion : KeyStore.modelSetVersion s = .ok (s.values.get? SettingsKey.modelSetVersion) := rfl
  have htag : KeyStore.locale s = .ok (s.values.get? SettingsKey.locale) := rfl
  rw [KeyStore.watermark, hversion, htag]
  cases KeyStore.lastSync s with
  | error e => simp [bind, Except.bind]
  | ok t' => simp [bind, Except.bind, pure, Except.pure, eq_comm]

end Settings

end Replica
