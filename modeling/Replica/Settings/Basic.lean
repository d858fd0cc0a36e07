/-
Replica.Settings.Basic — the bookkeeping of a replica as texts under keys.

Settings live outside the replicated database, so that replacing the database cannot
wipe them. A place for settings answers three operations, any of which may fail and
then leaves its key as it was; the typed readings and writings are built on them.

A watermark is written key by key: locale, model-set version, time of the last sync.
The time comes last, so that a failure on the way never leaves a later time behind
markers that were not recorded. A place that can write several keys at once replaces
this by one write.
-/
import Replica.Record.Item
import Replica.Store.Error

namespace Replica

namespace SettingsKey

def lastSync : String := "sync.last_sync"
def locale : String := "sync.locale"
def modelSetVersion : String := "sync.model_set_version"
def extraVersion : String := "bootstrap.extra_version"

/-- Every key in use. -/
def every : List String := [lastSync, locale, modelSetVersion, extraVersion]

end SettingsKey

/-- One change of the settings. -/
inductive SettingsWrite where
  | put (key value : String)
  | drop (key : String)
  deriving DecidableEq, Repr

namespace SettingsWrite

def key : SettingsWrite → String
  | put key _ => key
  | drop key => key

/-- The write that records a text or its absence. -/
def ofOption (key : String) : Option String → SettingsWrite
  | some value => put key value
  | none => drop key

def lastSync (t : Timestamp) : SettingsWrite := put SettingsKey.lastSync (toString t.millis)

def locale (tag : Option String) : SettingsWrite := ofOption SettingsKey.locale tag

def modelSetVersion (version : String) : SettingsWrite := put SettingsKey.modelSetVersion version

/-- Record the extra version of the snapshot the database was seeded from. -/
def extraVersion (version : Int) : SettingsWrite := put SettingsKey.extraVersion (toString version)

/-- The writes that record a watermark, in their order; without a model-set version the
recorded one is left alone. -/
def ofWatermark (w : Watermark) : List SettingsWrite :=
  locale w.locale :: (w.modelSetVersion.map modelSetVersion).toList ++ [lastSync w.lastSync]

end SettingsWrite

/-- A place that keeps texts under keys. -/
class KeyStore (σ : Type) where
  /-- The text under a key. -/
  get : σ → String → Except StoreError (Option String)
  /-- Carry out one write. -/
  write : SettingsWrite → σ → Except StoreError σ

namespace KeyStore

variable {σ : Type} [KeyStore σ]

/-- Carry out writes up to the first that fails; those before it stay. -/
def writeAll : List SettingsWrite → σ → Except StoreError Unit × σ
  | [], s => (.ok (), s)
  | w :: rest, s =>
    match write w s with
    | .ok s => writeAll rest s
    | .error e => (.error e, s)

/-- The time of the last sync; zero when none is recorded. -/
def lastSync (s : σ) : Except StoreError Timestamp := do
  match ← get s SettingsKey.lastSync with
  | none => return .zero
  | some raw =>
    match Text.readUnsigned64 raw with
    | .ok n => return ⟨n⟩
    | .error fault => throw (.invalidData (.badLastSync raw fault))

def locale (s : σ) : Except StoreError (Option String) := get s SettingsKey.locale

def modelSetVersion (s : σ) : Except StoreError (Option String) :=
  get s SettingsKey.modelSetVersion

/-- The extra version of the snapshot the database was seeded from; zero when none is
recorded. -/
def extraVersion (s : σ) : Except StoreError Int := do
  match ← get s SettingsKey.extraVersion with
  | none => return 0
  | some raw =>
    match Text.readSigned64 raw with
    | .ok n => return n
    | .error fault => throw (.invalidData (.badExtraVersion raw fault))

def watermark (s : σ) : Except StoreError Watermark := do
  let t ← lastSync s
  let version ← modelSetVersion s
  let tag ← locale s
  return ⟨t, version, tag⟩

end KeyStore

/-- A place for settings. -/
class SettingsStore (σ : Type) extends KeyStore σ where
  /-- Record a watermark; key by key unless the place can do better. -/
  saveWatermark : Watermark → σ → Except StoreError Unit × σ :=
    fun w s => KeyStore.writeAll (SettingsWrite.ofWatermark w) s

/-! ## The two places for settings -/

/-- Settings in memory, some keys of which may refuse writes, and settings in a
database, which writes a watermark in one transaction. -/
inductive Settings where
  | memory (values : Dict String) (readOnly : List String)
  | database (values : Dict String)

namespace Settings

/-- What is recorded. -/
def values : Settings → Dict String
  | memory values _ => values
  | database values => values

/-- The values after a write. -/
def written (values : Dict String) : SettingsWrite → Dict String
  | .put key value => values.insert key value
  | .drop key => values.erase key

instance : KeyStore Settings where
  get s key := .ok (s.values.get? key)
  write w
    | memory values readOnly =>
      if readOnly.contains w.key then .error (.invalidData (.readOnlyKey w.key))
      else .ok (memory (written values w) readOnly)
    | database values => .ok (database (written values w))

instance : SettingsStore Settings where
  saveWatermark w
    | memory values readOnly =>
      KeyStore.writeAll (SettingsWrite.ofWatermark w) (memory values readOnly)
    | database values =>
      (.ok (), database ((SettingsWrite.ofWatermark w).foldl written values))

end Settings

end Replica
