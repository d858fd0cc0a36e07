/-
Replica.Cycle.Run — one sync cycle, and the replica that runs them.

A cycle reads the watermark, decides what is fetched in full, fetches every page,
merges, and only then records the new watermark. It fetches everything when the
watermark is older than the configured interval or was reached under another model
set. The new watermark is the time of the newest live record, never earlier than the
old one and never later than the clock; after a fetch for age it is the clock.

Cycles on one replica are serialized. The state that an observer sees goes through
"in progress" and "committed" or "failed" back to "idle".
-/
import Replica.Cycle.Fetch
import Replica.Settings.Basic

namespace Replica

/-- Where a replica stands. -/
inductive SyncState where
  | idle
  | inProgress
  | committed
  | failed
  deriving DecidableEq, Repr

/-- What a cycle has done. -/
structure SyncOutcome where
  /-- The watermark it recorded. -/
  newest : Timestamp
  merged : Nat
  deleted : Nat
  localized : Nat
  /-- How many requests it sent. -/
  pages : Nat
  /-- Whether everything was fetched because of the watermark's age. -/
  fullResync : Bool
  deriving DecidableEq

/-- What stays the same over the cycles of a replica. -/
structure Engine where
  config : SyncConfig
  registry : Registry
  hook : Option (Record → Record)

/-- The end of a cycle: its result, the requests it sent, and what it left behind. -/
structure CycleRun (σ τ : Type) where
  result : Except SyncError SyncOutcome
  sent : List Request
  store : σ
  settings : τ

namespace Engine

/-- How the engine writes records. -/
def merger (e : Engine) : Merger :=
  ⟨e.registry, e.config.conflictPolicy, e.config.locale, e.hook⟩

/-- Whether a watermark is too old to continue from. -/
def isExpired (e : Engine) (now : Timestamp) (w : Watermark) : Bool :=
  !w.lastSync.isZero && e.config.expireInterval.totalNanos < (now.since w.lastSync).totalNanos

/-- Whether a watermark was reached under another model set. -/
def modelSetChanged (e : Engine) (w : Watermark) : Bool :=
  match w.modelSetVersion with
  | some version => version ≠ e.registry.version
  | none => false

/-- What is fetched from a watermark. -/
def inputs (e : Engine) (now : Timestamp) (w : Watermark) : SelectionInputs where
  lastSync := if e.isExpired now w || e.modelSetChanged w then .zero else w.lastSync
  grayRelease := e.config.effectiveGrayRelease
  locale := e.config.locale
  localeRebuild := w.localeChanged e.config.locale

/-- The time of the newest live item. -/
def newestChange (groups : List ModelGroup) : Option Timestamp :=
  ((Merger.itemsOf groups).filter (fun i => !i.isTombstone)).foldl
    (fun newest i => some ((newest.getD i.metadata.lastChangedAt).latest i.metadata.lastChangedAt))
    none

/-- The watermark that a cycle records. -/
def nextSync (e : Engine) (now : Timestamp) (w : Watermark) (groups : List ModelGroup) :
    Timestamp :=
  if e.isExpired now w then now
  else (((newestChange groups).map (·.latest w.lastSync)).getD w.lastSync).earliest now

variable {σ τ : Type} [LocalStore σ] [SettingsStore τ]

/-- Merge what was fetched and record the watermark. -/
def commit (e : Engine) (now : Timestamp) (w : Watermark) (sent : List Request)
    (fetched : Fetched) (store : σ) (settings : τ) : CycleRun σ τ :=
  let newest := e.nextSync now w fetched.groups
  match e.merger.merge fetched.groups store with
  | (.error err, store) => ⟨.error err, sent, store, settings⟩
  | (.ok stats, store) =>
    let reached : Watermark := ⟨newest, some e.registry.version, e.config.locale⟩
    match SettingsStore.saveWatermark reached settings with
    | (.error err, settings) => ⟨.error (.storage err), sent, store, settings⟩
    | (.ok (), settings) =>
      ⟨.ok ⟨newest, stats.upserted, stats.deleted, stats.localized, fetched.pages,
        e.isExpired now w⟩, sent, store, settings⟩

def run (e : Engine) (now : Timestamp) (transport : Transport) (store : σ) (settings : τ) :
    CycleRun σ τ :=
  match LocalStore.ready store with
  | .error err => ⟨.error (.storage err), [], store, settings⟩
  | .ok () =>
    match KeyStore.watermark settings with
    | .error err => ⟨.error (.storage err), [], store, settings⟩
    | .ok w =>
      match Fetch.all transport e.registry e.config (e.inputs now w) with
      | ⟨sent, .error err⟩ => ⟨.error err, sent, store, settings⟩
      | ⟨sent, .ok fetched⟩ => e.commit now w sent fetched store settings

end Engine

/-! ## Replicas -/

/-- A replica between cycles. -/
structure Replicator (σ τ : Type) where
  engine : Engine
  store : σ
  settings : τ
  state : SyncState
  /-- The outcome of the last cycle; none if it failed or none was run. -/
  lastOutcome : Option SyncOutcome

namespace Replicator

variable {σ τ : Type} [LocalStore σ] [SettingsStore τ]

def start (engine : Engine) (store : σ) (settings : τ) : Replicator σ τ :=
  ⟨engine, store, settings, .idle, none⟩

/-- What a caller sees of one cycle. -/
structure Observed where
  result : Except SyncError SyncOutcome
  sent : List Request
  /-- The states that were published. -/
  published : List SyncState

/-- The outcome of a cycle that did not fail. -/
def outcome? : Except SyncError SyncOutcome → Option SyncOutcome
  | .ok outcome => some outcome
  | .error _ => none

def sync (r : Replicator σ τ) (now : Timestamp) (transport : Transport) :
    Observed × Replicator σ τ :=
  let cycle := r.engine.run now transport r.store r.settings
  let outcome := outcome? cycle.result
  let last : SyncState := if outcome.isSome then .committed else .failed
  (⟨cycle.result, cycle.sent, [.inProgress, last, .idle]⟩,
    { r with
      store := cycle.store, settings := cycle.settings, state := .idle, lastOutcome := outcome })

end Replicator

end Replica
