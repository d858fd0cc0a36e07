/-
Replica.Cycle.Merge — writing fetched records to the local store.

Fetched items are grouped by model in the order of their arrival. The first pass
writes all of them in one transaction: tombstones delete their record, other items
replace it. The second pass runs when the first has taken effect, and copies display
fields from locale overlays onto the records they overlay; it never fails the merge.
-/
import Replica.Cycle.Config
import Replica.Request.Error
import Replica.Store.Basic

namespace Replica

/-- Everything fetched of one model, in the order of arrival. -/
structure ModelGroup where
  model : String
  items : List Item
  deriving DecidableEq

/-- What a merge has done. -/
structure MergeStats where
  upserted : Nat
  deleted : Nat
  /-- Records that got display fields from an overlay. -/
  localized : Nat
  /-- Items that were older than the stored record. -/
  stale : Nat
  deriving DecidableEq

/-- How fetched records are written. -/
structure Merger where
  registry : Registry
  policy : ConflictPolicy
  /-- The locale whose stored overlays are applied. -/
  locale : Option String
  /-- What happens to a record before it is written. -/
  hook : Option (Record → Record)

namespace Merger

/-! ## First pass -/

def noStats : MergeStats := ⟨0, 0, 0, 0⟩

/-- Whether a stored version is newer than an item. -/
def isStale (stored : Option Int) (i : Item) : Bool :=
  match stored with
  | some version => i.metadata.version < version
  | none => false

def upsert (m : Merger) (i : Item) (stats : MergeStats) (r : Registry) (db : Database) :
    Except StoreError (MergeStats × Database) := do
  let record := (m.hook.getD id) i.record
  let db ← db.save r record i.metadata.version
  return ({ stats with upserted := stats.upserted + 1 }, db)

def applyItem (m : Merger) (i : Item) (stats : MergeStats) (r : Registry) (db : Database) :
    Except StoreError (MergeStats × Database) := do
  if i.isTombstone then
    let (_, db) ← db.delete r i.record.model i.record.id
    return ({ stats with deleted := stats.deleted + 1 }, db)
  else
    match m.policy with
    | .arrivalOrder => m.upsert i stats r db
    | .versionChecked =>
      let stored ← db.versionOf r i.record.model i.record.id
      if isStale stored i then return ({ stats with stale := stats.stale + 1 }, db)
      else m.upsert i stats r db

def applyItems (m : Merger) : List Item → MergeStats → Transaction MergeStats
  | [], stats, _, db => .ok (stats, db)
  | i :: rest, stats, r, db => do
    let (stats, db) ← m.applyItem i stats r db
    applyItems m rest stats r db

/-- All items of all groups in order. -/
def itemsOf (groups : List ModelGroup) : List Item := groups.flatMap (·.items)

/-- The transaction of the first pass. -/
def firstPass (m : Merger) (groups : List ModelGroup) : Transaction MergeStats :=
  m.applyItems (itemsOf groups) noStats

/-! ## Overlay jobs -/

/-- The second pass for one overlay model. -/
structure OverlayJob where
  overlay : String
  target : String
  /-- Live overlays of this merge, in the order of arrival. -/
  fresh : List Record
  /-- The records whose overlays are looked up. -/
  baseIds : List String

/-- The live records among the groups of a model. -/
def liveRecords (groups : List ModelGroup) (model : String) : List Record :=
  ((itemsOf (groups.filter (fun g => g.model = model))).filter (fun i => !i.isTombstone)).map
    (·.record)

/-- The first occurrence of each text. -/
def distinct (ids : List String) : List String :=
  ids.foldl (fun seen id => if seen.contains id then seen else seen ++ [id]) []

/-- The job for an overlay model and its target. -/
def jobFor (groups : List ModelGroup) (overlay target : String) : OverlayJob :=
  let fresh := liveRecords groups overlay
  ⟨overlay, target, fresh,
    distinct (fresh.filterMap Record.materialId? ++ (liveRecords groups target).map (·.id))⟩

/-- The job for a model, if it is an overlay that can be applied and has something to
do. -/
def jobOf? (r : Registry) (groups : List ModelGroup) (m : ModelSchema) : Option OverlayJob :=
  match r.overlayTarget? m.name with
  | none => none
  | some target =>
    if m.capabilities.materialId then
      let job := jobFor groups m.name target.name
      if job.baseIds.isEmpty then none else some job
    else none

/-- The jobs of all overlay models, in registration order. -/
def jobs (r : Registry) (groups : List ModelGroup) : List OverlayJob :=
  r.models.filterMap (jobOf? r groups)

/-! ## Stored overlays -/

/-- How many records are looked up at a time. -/
def lookupSize : Nat := 200

/-- Cut a list into pieces; the first number bounds how many. -/
def pieces {α : Type} (size : Nat) : Nat → List α → List (List α)
  | 0, _ => []
  | _, [] => []
  | bound + 1, x :: xs => (x :: xs).take size :: pieces size bound ((x :: xs).drop size)

/-- The overlays of some records, in a locale if the model declares locales. -/
def overlaysOf (caps : Capabilities) (locale : Option String) (ids : List String) : Predicate :=
  let byBase := Predicate.anyOf (ids.map fun id => .compare FieldName.materialId .eq (.str id))
  match locale with
  | some tag =>
    if caps.locale then byBase.both (.compare FieldName.locale .eq (.str tag))
    else byBase.both .all
  | none => byBase.both .all

variable {σ : Type} [LocalStore σ]

/-- Look up one piece after the other, up to the first failure. -/
def lookUp (model : String) (p : List String → Predicate) :
    List (List String) → σ → Except StoreError (List Record) × σ
  | [], s => (.ok [], s)
  | ids :: rest, s =>
    match LocalStore.query model (p ids) s with
    | (.error e, s) => (.error e, s)
    | (.ok found, s) =>
      match lookUp model p rest s with
      | (.error e, s) => (.error e, s)
      | (.ok more, s) => (.ok (found ++ more), s)

/-- The stored overlays of a job; none if they cannot be read. -/
def storedOverlays (m : Merger) (job : OverlayJob) (s : σ) : List Record × σ :=
  match m.registry.capabilities job.overlay with
  | .error _ => ([], s)
  | .ok caps =>
    match lookUp job.overlay (overlaysOf caps m.locale)
        (pieces lookupSize job.baseIds.length job.baseIds) s with
    | (.ok found, s) => (found, s)
    | (.error _, s) => ([], s)

/-! ## Second pass -/

/-- An overlay model's target and the overlays to apply, the ones that win first. -/
structure Resolved where
  target : String
  candidates : List Record

/-- Find the candidates of every job. -/
def resolve (m : Merger) : List OverlayJob → σ → List Resolved × σ
  | [], s => ([], s)
  | job :: rest, s =>
    let (stored, s) := m.storedOverlays job s
    let (more, s) := resolve m rest s
    (⟨job.target, job.fresh ++ stored⟩ :: more, s)

/-- The display fields that an overlay gives: a name that is not empty and a sort. -/
def patchOf (overlay : Record) : List (String × Json) :=
  (overlay.displayName?.map fun name => (FieldName.name, .str name)).toList
    ++ (overlay.sort?.map fun n => (FieldName.sort, .int n)).toList

/-- Apply the first overlay of each record. An overlay identifier that was met before is
the same overlay; a record that was met before keeps the first one; an update that
fails changes nothing. -/
def applyOverlays (target : String) (r : Registry) :
    List Record → List String → List String → Nat → Database → Nat × Database
  | [], _, _, count, db => (count, db)
  | overlay :: rest, seenOverlays, seenBases, count, db =>
    if seenOverlays.contains overlay.id then
      applyOverlays target r rest seenOverlays seenBases count db
    else
      let seenOverlays := overlay.id :: seenOverlays
      match overlay.materialId? with
      | none => applyOverlays target r rest seenOverlays seenBases count db
      | some base =>
        if seenBases.contains base then
          applyOverlays target r rest seenOverlays seenBases count db
        else
          let seenBases := base :: seenBases
          match patchOf overlay with
          | [] => applyOverlays target r rest seenOverlays seenBases count db
          | patch =>
            match db.updateFields r target base patch with
            | .ok (true, db) => applyOverlays target r rest seenOverlays seenBases (count + 1) db
            | .ok (false, db) => applyOverlays target r rest seenOverlays seenBases count db
            | .error _ => applyOverlays target r rest seenOverlays seenBases count db

/-- Apply the overlays of every job; the count is of updated records. -/
def applyResolved : List Resolved → Nat → Transaction Nat
  | [], count, _, db => .ok (count, db)
  | job :: rest, count, r, db =>
    let (count, db) := applyOverlays job.target r job.candidates [] [] count db
    applyResolved rest count r db

/-- The second pass; a failure counts as nothing done. -/
def secondPass (m : Merger) (jobs : List OverlayJob) (s : σ) : Nat × σ :=
  if jobs.isEmpty then (0, s)
  else
    let (resolved, s) := m.resolve jobs s
    match LocalStore.transact (applyResolved resolved 0) s with
    | (.ok count, s) => (count, s)
    | (.error _, s) => (0, s)

/-! ## Merge -/

/-- The first group's model that is not registered. -/
def unknownGroup? (r : Registry) (groups : List ModelGroup) : Option String :=
  (groups.find? (fun g => !r.contains g.model)).map (·.model)

/-- Write all groups. It fails only if the first pass does not take effect. -/
def merge (m : Merger) (groups : List ModelGroup) (s : σ) : Except SyncError MergeStats × σ :=
  match unknownGroup? m.registry groups with
  | some model => (.error (.schema (.unknownModel model)), s)
  | none =>
    match LocalStore.transact (m.firstPass groups) s with
    | (.error e, s) => (.error (.mergeFailed e), s)
    | (.ok stats, s) =>
      let (localized, s) := m.secondPass (jobs m.registry groups) s
      (.ok { stats with localized := localized }, s)

end Merger

end Replica
