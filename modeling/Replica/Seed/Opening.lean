/-
Replica.Seed.Opening — opening a store behind its readiness gate.

A store is opened in the background: the seeder runs, the database is opened, its
tables are created, the connection is put in its place, the completion is announced,
and last the gate opens. A stage that fails settles the gate with the wording of its
error and ends the opening. Operations wait at the gate, so none of them sees the
database before that.
-/
import Replica.Seed.Snapshot
import Replica.Store.Basic
import Replica.Store.Readiness

namespace Replica

/-! ## Stores in files -/

/-- A store whose database is a file, once opening it has ended. -/
inductive FileStore where
  | opened (registry : Registry) (connection : Connection)
  | failed (registry : Registry) (reason : String)

namespace FileStore

def registry : FileStore → Registry
  | opened r _ => r
  | failed r _ => r

def ready : FileStore → Except StoreError Unit
  | opened _ _ => .ok ()
  | failed _ reason => .error (.initialization reason)

/-- A store that goes over to the log holds it open. -/
def holdLog (before after : Connection) (files : Files) : Files :=
  if after.logged.isSome && before.logged.isNone then
    { files with heldLogs := after.number :: files.heldLogs }
  else files

/-- A store that has the log open lets it go. -/
def releaseLog (c : Connection) (files : Files) : Files :=
  if c.logged.isSome then { files with heldLogs := files.heldLogs.erase c.number } else files

/-- The store on what its file holds now. A file that is no database any more has no
tables. -/
def current (s : FileStore) (files : Files) : Store × FileStore × Files :=
  match s with
  | failed r reason => (.failed r reason, s, files)
  | opened r c =>
    match c.enter files with
    | (.error _, files) => (.opened r Database.empty, s, files)
    | (.ok entered, files) =>
      let files := holdLog c entered files
      let content := match entered.view files with
        | .ok db => db
        | .error _ => Database.empty
      (.opened r content, opened r entered, files)

/-- Whether the store can write changes. -/
def canWrite (s : FileStore) (files : Files) : Bool :=
  match s with
  | opened _ c => c.canWrite files
  | failed _ _ => false

/-- Write what the store has become. -/
def keep (s : FileStore) (store : Store) (files : Files) : Files :=
  match s, store with
  | opened _ c, .opened _ after =>
    match c.view files with
    | .ok before => (c.write before after files).2
    | .error _ => files
  | _, _ => files

/-- Close the store. -/
def close (s : FileStore) (files : Files) : Files :=
  match s with
  | opened _ c => c.close (releaseLog c files)
  | failed _ _ => files

/-- Create the tables of a store that was connected. What was created before a failure
stays. -/
def create (r : Registry) (c : Connection) : FileTask FileStore := fun files =>
  match c.enter files with
  | (.error e, files) => (.error e, files)
  | (.ok entered, files) =>
    match entered.perform (fun db => let (db, created) := db.prepare r; (created, db)) files with
    | (.ok (), files) => (.ok (opened r entered), holdLog c entered files)
    | (.error e, files) => (.error e, entered.close files)

/-- Open a store on a file, without seeding. -/
def openAt (path : String) (r : Registry) : FileTask FileStore := do
  create r (← Files.connect path)

end FileStore

/-- A store in a file, together with the files. -/
structure HeldStore where
  store : FileStore
  files : Files

namespace HeldStore

/-- Run a transaction on what the file holds now, and write what becomes of it. A store that
cannot write refuses a change. -/
def transact {α : Type} (work : Transaction α) (s : HeldStore) : Except StoreError α × HeldStore :=
  let (content, held, files) := s.store.current s.files
  let (answer, after) := content.transact (if held.canWrite files then work else work.readOnly)
  (answer, ⟨held, held.keep after files⟩)

/-- The records of a model that a predicate selects in what the file holds now. -/
def query (model : String) (p : Predicate) (s : HeldStore) :
    Except StoreError (List Record) × HeldStore :=
  let (content, held, files) := s.store.current s.files
  (content.query model p, ⟨held, files⟩)

instance : LocalStore HeldStore where
  ready s := s.store.ready
  transact := transact
  query := query

end HeldStore

/-! ## Behind the gate -/

/-- What the opening does next. -/
inductive OpeningStage where
  | seed
  | connect (outcome : SeedOutcome)
  | createTables (outcome : SeedOutcome) (connection : Connection)
  | fillSlot (outcome : SeedOutcome) (store : FileStore)
  | announce (outcome : SeedOutcome)
  | openGate
  | ended

/-- A store on its way to be opened. -/
structure Opening (σ : Type) where
  site : Site σ
  registry : Registry
  seeder : Seeder
  stage : OpeningStage
  gate : Readiness
  /-- The place of the connection. -/
  slot : Option FileStore
  /-- What the listener was told. -/
  told : List SeedOutcome

namespace Opening

variable {σ : Type} [SettingsStore σ]

def start (site : Site σ) (registry : Registry) (seeder : Seeder) : Opening σ :=
  ⟨site, registry, seeder, .seed, .pending, none, []⟩

def fail (o : Opening σ) (e : StoreError) : Opening σ :=
  { o with stage := .ended, gate := o.gate.markFailed e.message }

def withFiles (o : Opening σ) (files : Files) : Opening σ :=
  { o with site := { o.site with files := files } }

def step (o : Opening σ) : Opening σ :=
  match o.stage with
  | .seed =>
    match o.seeder.run o.site with
    | (.ok outcome, seeder, site) =>
      { o with seeder := seeder, site := site, stage := .connect outcome }
    | (.error e, seeder, site) => { o with seeder := seeder, site := site }.fail e
  | .connect outcome =>
    match Files.connect o.seeder.databasePath o.site.files with
    | (.ok c, files) => { o.withFiles files with stage := .createTables outcome c }
    | (.error e, files) => (o.withFiles files).fail e
  | .createTables outcome c =>
    match FileStore.create o.registry c o.site.files with
    | (.ok store, files) => { o.withFiles files with stage := .fillSlot outcome store }
    | (.error e, files) => (o.withFiles files).fail e
  | .fillSlot outcome store => { o with slot := some store, stage := .announce outcome }
  | .announce outcome =>
    let (told, seeder) := o.seeder.announce outcome
    { o with seeder := seeder, told := o.told ++ told.toList, stage := .openGate }
  | .openGate => { o with gate := o.gate.markReady, stage := .ended }
  | .ended => o

def steps : Nat → Opening σ → Opening σ
  | 0, o => o
  | n + 1, o => steps n o.step

def finish (o : Opening σ) : Opening σ := steps 6 o

/-- The store behind the settled gate. -/
def store (o : Opening σ) : FileStore :=
  match o.gate, o.slot with
  | .failed reason, _ => .failed o.registry reason
  | _, some store => store
  | _, none => .failed o.registry "store is not open"

end Opening

end Replica
