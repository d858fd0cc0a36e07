/-
Replica.Seed.Snapshot — when and how the local database is seeded.

An application ships a prebuilt database, the snapshot. Before first use the markers
of the local database (its schema stamp, and the extra version kept in the settings)
are compared with those of the snapshot. If they differ, or there is no local file,
the snapshot is copied over the local file through a temporary sibling and a rename,
left-over journal files are dropped, the file is stamped, and the settings record the
extra version, the running model-set version and the snapshot's time as the time of
the last sync. Without a snapshot the local file is only stamped with the running
version. A seeder does this once.

What a run does is a list of `SeedStep`s that is fixed before the first one is taken;
a step that fails ends the run and leaves the effects of those before it. Reading the
markers may put the companions of a database in order but changes no database.
-/
import Replica.Seed.Connection
import Replica.Settings.Basic

namespace Replica

/-- A prebuilt database. -/
structure Snapshot where
  path : String
  /-- Its schema stamp, if it is not to be read from the file. -/
  schemaVersion : Option String
  /-- The revision of its content. -/
  extraVersion : Int
  /-- When its content was exported. -/
  updatedAt : Timestamp
  deriving DecidableEq

/-- What tells two seeds apart. -/
structure VersionMarkers where
  schemaVersion : Option String
  extraVersion : Int
  deriving DecidableEq

/-- What a run has done. -/
inductive SeedOutcome where
  /-- The database was left alone. -/
  | noAction
  /-- The snapshot was put in place. -/
  | replaced (markers : VersionMarkers) (lastSync : Timestamp)
  deriving DecidableEq

/-- Where seeding takes place. -/
structure Site (σ : Type) where
  files : Files
  settings : σ

/-- The seeding of one local database. -/
structure Seeder where
  databasePath : String
  /-- The version of the running model set. -/
  runningVersion : String
  snapshot : Option Snapshot
  /-- Whether a run was begun. -/
  ran : Bool
  /-- Whether the completion was announced. -/
  announced : Bool

/-! ## Steps -/

/-- One step of a run. -/
inductive SeedStep where
  /-- Stamp the database in a file. -/
  | stamp (path version : String)
  /-- Make the directory of a file. -/
  | makeParent (path : String)
  /-- Copy a file. -/
  | copy (source target : String)
  /-- Remove a file if it is there. -/
  | discard (path : String)
  /-- Move a file over another one. -/
  | rename (source target : String)
  /-- Write to the settings. -/
  | record (write : SettingsWrite)
  deriving DecidableEq

namespace SeedStep

variable {σ : Type} [SettingsStore σ]

def take (step : SeedStep) (site : Site σ) : Except StoreError Unit × Site σ :=
  match step with
  | stamp path version => onFiles (Files.writeStamp path version)
  | makeParent path => onFiles (Files.makeParent path)
  | copy source target => onFiles (Files.copy source target)
  | discard path => onFiles (Files.discard path)
  | rename source target => onFiles (Files.rename source target)
  | record w =>
    match KeyStore.write w site.settings with
    | .ok settings => (.ok (), { site with settings := settings })
    | .error e => (.error e, site)
where
  onFiles (task : FileTask Unit) : Except StoreError Unit × Site σ :=
    let (answer, files) := task site.files
    (answer, { site with files := files })

def takeAll : List SeedStep → Site σ → Except StoreError Unit × Site σ
  | [], site => (.ok (), site)
  | step :: rest, site =>
    match step.take site with
    | (.ok (), site) => takeAll rest site
    | (.error e, site) => (.error e, site)

end SeedStep

/-! ## Runs -/

namespace Seeder

/-- A seeder that has not run. -/
def fresh (databasePath runningVersion : String) (snapshot : Option Snapshot) : Seeder :=
  ⟨databasePath, runningVersion, snapshot, false, false⟩

variable {σ : Type} [SettingsStore σ]

/-- The markers recorded for the local database. -/
def localMarkers (b : Seeder) (settings : σ) : FileTask VersionMarkers := do
  let schemaVersion ← Files.readStamp b.databasePath
  match KeyStore.extraVersion settings with
  | .ok extraVersion => return ⟨schemaVersion, extraVersion⟩
  | .error e => throw e

/-- The markers of a snapshot. -/
def markersOf (s : Snapshot) : FileTask VersionMarkers := do
  match s.schemaVersion with
  | some version => return ⟨some version, s.extraVersion⟩
  | none => return ⟨← Files.readStamp s.path, s.extraVersion⟩

/-- The markers of the snapshot, if there is one. -/
def snapshotMarkers (b : Seeder) : FileTask (Option VersionMarkers) := do
  match b.snapshot with
  | none => return none
  | some s => return some (← markersOf s)

/-- Whether the snapshot has to be put in place. -/
def needsReplace (b : Seeder) (settings : σ) : FileTask Bool := do
  match ← b.snapshotMarkers with
  | none => return false
  | some bundled =>
    if !(← get).exists? b.databasePath then return true
    return (← b.localMarkers settings) ≠ bundled

/-- The files beside a database that belong to its old content. -/
def staleEndings : List String := ["wal", "shm", "journal"]

/-- The steps that put a snapshot in place. -/
def replaceSteps (b : Seeder) (s : Snapshot) (markers : VersionMarkers) : List SeedStep :=
  let copied := Path.sibling b.databasePath "bootstrap-tmp"
  [.makeParent b.databasePath, .copy s.path copied]
    ++ staleEndings.map (fun ending => .discard (Path.sibling b.databasePath ending))
    ++ [.rename copied b.databasePath]
    ++ (markers.schemaVersion.map (SeedStep.stamp b.databasePath)).toList
    ++ [.record (.extraVersion markers.extraVersion),
      .record (.modelSetVersion b.runningVersion), .record (.lastSync s.updatedAt)]

/-- What a run is going to do and to answer. -/
def plan (b : Seeder) (settings : σ) : FileTask (List SeedStep × SeedOutcome) := do
  if b.ran then return ([], .noAction)
  let needed ← b.needsReplace settings
  match b.snapshot with
  | none => return ([.stamp b.databasePath b.runningVersion], .noAction)
  | some s =>
    if !needed then return ([], .noAction)
    let markers ← markersOf s
    if !(← get).exists? s.path then throw (.bootstrap (.snapshotMissing s.path))
    return (b.replaceSteps s markers, .replaced markers s.updatedAt)

/-- Compare the markers and seed the database if need be. A second run does nothing. -/
def run (b : Seeder) (site : Site σ) : Except StoreError SeedOutcome × Seeder × Site σ :=
  let begun := { b with ran := true }
  match b.plan site.settings site.files with
  | (.error e, files) => (.error e, begun, { site with files := files })
  | (.ok (steps, outcome), files) =>
    match SeedStep.takeAll steps { site with files := files } with
    | (.ok (), site) => (.ok outcome, begun, site)
    | (.error e, site) => (.error e, begun, site)

/-- Announce the completion, unless that was done before; the first part is what the
listener is told. -/
def announce (b : Seeder) (outcome : SeedOutcome) : Option SeedOutcome × Seeder :=
  if b.announced then (none, b) else (some outcome, { b with announced := true })

end Seeder

end Replica
