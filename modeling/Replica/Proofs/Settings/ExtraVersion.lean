/-
Replica.Proofs.Settings.ExtraVersion — the extra version of the seed and who writes it.

The extra version is read from a key of its own. It is read back as it was recorded, and
recording a watermark does not touch it, whether or not the watermark is accepted.
-/
import Replica.Proofs.Settings.Watermark
import Replica.Proofs.Text.Integer

namespace Replica.Settings

/-- The extra version is decided by what is under its key. -/
theorem extraVersion_congr {s s' : Settings}
    (h : s'.values.get? SettingsKey.extraVersion = s.values.get? SettingsKey.extraVersion) :
    KeyStore.extraVersion s' = KeyStore.extraVersion s := by
  have hget : KeyStore.get s' SettingsKey.extraVersion = KeyStore.get s SettingsKey.extraVersion :=
    congrArg Except.ok h
  rw [KeyStore.extraVersion, KeyStore.extraVersion, hget]

/-- A recorded extra version is read back. -/
theorem extraVersion_recorded {s : Settings} {version : Int}
    (hlow : -(Text.maxSigned64 + 1 : Nat) ≤ version) (hhigh : version ≤ (Text.maxSigned64 : Nat))
    (h : s.values.get? SettingsKey.extraVersion = some (toString version)) :
    KeyStore.extraVersion s = .ok version := by
  have hget : KeyStore.get s SettingsKey.extraVersion = .ok (some (toString version)) :=
    congrArg Except.ok h
  rw [KeyStore.extraVersion, hget]
  simp only [bind, Except.bind]
  rw [Text.readSigned64_toString hlow hhigh]
  rfl

/-- What an accepted write leaves under each key. -/
theorem get?_write {w : SettingsWrite} {s s' : Settings} (h : KeyStore.write w s = .ok s')
    (key : String) :
    s'.values.get? key = if w.key = key then w.value? else s.values.get? key := by
  rcases write_cases w s with hw | ⟨e, hw, -⟩
  · rw [hw] at h
    cases h
    rw [values_withValues, get?_written]
  · rw [hw] at h
    cases h

/-- Writes under other keys, up to the first that is refused, leave a key as it was. -/
theorem get?_writeAll {key : String} {writes : List SettingsWrite}
    (h : ∀ w ∈ writes, w.key ≠ key) (s : Settings) :
    (KeyStore.writeAll writes s).2.values.get? key = s.values.get? key := by
  rcases writeAll_cases writes s with hall | ⟨done, w, rest, e, rfl, -, hsome⟩
  · rw [hall, values_withValues, get?_foldl_written writes _ h]
  · rw [hsome, values_withValues,
      get?_foldl_written done _ fun w hw => h w (List.mem_append_left _ hw)]

/-- Recording a watermark leaves the extra version as it was. -/
theorem extraVersion_saveWatermark (w : Watermark) (s : Settings) :
    KeyStore.extraVersion (SettingsStore.saveWatermark w s).2 = KeyStore.extraVersion s := by
  have hkey : SettingsKey.extraVersion ∉ SettingsKey.watermark := by decide
  refine extraVersion_congr ?_
  cases s with
  | database values => exact get?_recorded_other values w hkey
  | memory values readOnly =>
    refine get?_writeAll ?_ (memory values readOnly)
    intro x hx e
    have hmem := SettingsWrite.key_mem_of_mem_ofWatermark hx
    exact hkey (e ▸ hmem)

end Replica.Settings
