/-
Replica.Seed.Connection — databases in files.

A file of at most one byte is an empty database, and any other text is none. A database
has three companions, files beside it with its name and an ending:
* the journal of a change that was broken off. One that starts with a character other
  than NUL is hot: the change has to be taken back first, so that the database is what
  the journal says it was. Whoever may write does so and removes the journal, and whoever
  may only read is refused;
* the log. Where there is one that is not empty, changes go to it and the file stays as it
  is; what is read is what the log says, or the file as long as the log has no changes. The
  last one to leave who may write brings the file up to date and removes the log;
* the index of the log.

The companions of an empty database are left over from another one and are removed. Of a
text in their place nothing can be read.

A connection belongs to a file and not to its name: once the file is moved or removed,
what it holds can still be read, but it is not written any more. It may only read if the
file was read-only when it was opened.

A log and a journal say what the whole database is or was, so one that was left beside a
database of other content counts as its own. Databases that ask for a log in their header
are left out, and so are logs that are written back before the last one leaves.
-/
import Replica.Seed.Files

namespace Replica

namespace FileContent

def isEmpty : FileContent → Bool
  | text "" => true
  | _ => false

/-- Whether the first byte is NUL. -/
def startsWithNul : FileContent → Bool
  | text s => s.toList.head? = some '\x00'
  | _ => false

/-- Whether there is more than an empty database; a single byte does not count. -/
def isOccupied : FileContent → Bool
  | text s => 1 < s.utf8ByteSize
  | _ => true

def database? : FileContent → Except StoreError Database
  | database db => .ok db
  | text s => if s.utf8ByteSize ≤ 1 then .ok Database.empty else .error .database
  | _ => .error .database

/-- What a log says that the database is. -/
def logged? : FileContent → Option Database
  | log db => some db
  | _ => none

/-- The database in a file, once its log says what it is or nothing. -/
def withLog (file : FileContent) : Option Database → Except StoreError Database
  | some db => .ok db
  | none => file.database?

/-- What the file of a database holds after a change was taken back with a journal. -/
def takenBack (file : FileContent) : FileContent → FileContent
  | journal (some before) => database before
  | journal none => text ""
  | _ => file

end FileContent

/-- A database file that is open. -/
structure Connection where
  /-- Where the file was when it was opened. -/
  place : String
  /-- The number of the file. -/
  number : Nat
  /-- Whether it may only read. -/
  readOnly : Bool
  /-- The number of the log that changes go to, once they do. -/
  logged : Option Nat
  deriving DecidableEq, Repr

namespace Connection

def journal (c : Connection) : String := Path.sibling c.place "journal"

def log (c : Connection) : String := Path.sibling c.place "wal"

def index (c : Connection) : String := Path.sibling c.place "shm"

end Connection

namespace Files

/-! ## Opening -/

/-- The greatest number of bytes of the place of a database. -/
def databasePlaceLimit : Nat := 500

/-- Follow parts from a directory to a place, whether or not the directories on the way
are there. The way must not lead through a file. -/
def locate (fs : Files) (here : String) : List String → Option String
  | [] => some here
  | part :: rest =>
    if part = ".." then locate fs (Path.above here) rest
    else if fs.names.contains here || (fs.isDirectory here && Path.isTooLong part) then none
    else locate fs (Path.child here part) rest

/-- The place that the path of a database leads to. -/
def databasePlace (fs : Files) (path : String) : Option String :=
  if Path.hasNul path then none
  else
    (fs.locate "" (Path.moves path)).filter fun place =>
      place.utf8ByteSize ≤ databasePlaceLimit

/-- Open a database to read. -/
def connectToRead (path : String) : FileTask Connection := do
  let fs ← get
  match fs.databasePlace path with
  | none => throw .database
  | some place =>
    match fs.names.get? place with
    | some number => return ⟨place, number, true, none⟩
    | none => throw .database

/-- Open a database to write, or to read if its file is read-only; an empty file is made in a
directory that is there. -/
def connect (path : String) : FileTask Connection := do
  let fs ← get
  match fs.databasePlace path with
  | none => throw .database
  | some place =>
    match fs.names.get? place with
    | some number => return ⟨place, number, fs.isReadOnly number, none⟩
    | none =>
      if fs.isDirectory place || !fs.isDirectory (Path.above place) then throw .database
      set (fs.create place (.text ""))
      return ⟨place, fs.stored.length, false, none⟩

end Files

namespace Connection

/-! ## Companions -/

/-- Take a change back that was broken off. -/
def recover (c : Connection) : FileTask Unit := do
  let fs ← get
  let file := fs.content c.number
  if fs.isDirectory c.journal then
    if file.isOccupied then throw .database
  else
    match fs.contentAt c.journal with
    | none => pure ()
    | some journal =>
      if journal.isEmpty || (file.isOccupied && journal.startsWithNul) then pure ()
      else if !file.isOccupied then
        if !c.readOnly then set (fs.erase c.journal)
      else
        if c.readOnly || fs.isReadOnlyAt c.journal then throw .database
        set ((fs.setContent c.number (file.takenBack journal)).erase c.journal)

/-- Make the index of the log; it is read-only if the database is. -/
def makeIndex (c : Connection) (fs : Files) : Files :=
  match fs.names.get? c.index with
  | none => fs.createFile c.index ⟨.logIndex, fs.isReadOnly c.number⟩
  | some index => if fs.isReadOnly index then fs else fs.setContent index .logIndex

/-- Go over to the log if there is one. -/
def enterLog (c : Connection) : FileTask Connection := do
  let fs ← get
  if fs.isDirectory c.log then throw .database
  match fs.names.get? c.log with
  | none => return c
  | some log =>
    if (fs.content log).isEmpty then return c
    else if !(fs.content c.number).isOccupied then
      set (fs.erase c.log)
      return c
    else
      if !fs.isDirectory c.index then set (c.makeIndex fs)
      return { c with logged := some log }

/-- Put the companions in order before the database is read. -/
def enter (c : Connection) : FileTask Connection :=
  if c.logged.isSome then pure c
  else do
    c.recover
    c.enterLog

/-- What is read: what the log says, or the file if it says nothing. -/
def view (c : Connection) (fs : Files) : Except StoreError Database :=
  (fs.content c.number).withLog (c.logged.bind fun log => (fs.content log).logged?)

/-- The database. -/
def read (c : Connection) : FileTask Database := do
  match c.view (← get) with
  | .ok db => return db
  | .error e => throw e

/-! ## Changes -/

/-- Whether the file has still its name. -/
def isAttached (c : Connection) (fs : Files) : Bool := fs.names.get? c.place = some c.number

/-- Whether a change can be begun: the log and its index have to be written for that. -/
def canBegin (c : Connection) (fs : Files) : Bool :=
  !c.readOnly && c.logged.all fun log =>
    !fs.isReadOnly log && !fs.isDirectory c.index && !fs.isReadOnlyAt c.index

/-- Whether changes can be written: to the log, or to the file after the journal. -/
def canWrite (c : Connection) (fs : Files) : Bool :=
  c.canBegin fs && (c.logged.isSome ||
    (c.isAttached fs || !(fs.content c.number).isOccupied) && !fs.isDirectory c.journal
      && !fs.isReadOnlyAt c.journal && !Path.isTooLong (Path.lastName c.journal))

/-- Write what a database has become, to the log or to the file. The journal is gone once the
file is written. -/
def write (c : Connection) (before after : Database) : FileTask Unit := fun fs =>
  if after = before then (.ok (), fs)
  else if !c.canWrite fs then (.error .database, fs)
  else
    match c.logged with
    | some log => (.ok (), fs.setContent log (.log after))
    | none => (.ok (), (fs.setContent c.number (.database after)).erase c.journal)

/-- Do work on the database and write what it has become, also if the work fails. -/
def perform {α : Type} (c : Connection) (work : Database → Except StoreError α × Database) :
    FileTask α := do
  let before ← c.read
  let (answer, after) := work before
  c.write before after
  match answer with
  | .ok a => return a
  | .error e => throw e

/-- Bring the file of a database up to date with its log. -/
def checkpoint (c : Connection) (fs : Files) : Files :=
  match c.logged.bind fun log => (fs.content log).logged? with
  | some db => fs.setContent c.number (.database db)
  | none => fs

/-- Close a connection. The last one to leave the log brings the file up to date and removes the
log, if it may write. -/
def close (c : Connection) (fs : Files) : Files :=
  if c.logged.isSome && c.isAttached fs && c.canWrite fs && !fs.heldLogs.contains c.number then
    ((c.checkpoint fs).erase c.log).erase c.index
  else fs

/-- Change the database and close the connection, however that ends. -/
def changeAndClose (c : Connection) (change : Database → Database) : FileTask Unit := fun fs =>
  match c.enter fs with
  | (.error e, fs) => (.error e, fs)
  | (.ok c, fs) =>
    let (answer, fs) :=
      if c.canBegin fs then c.perform (fun db => (.ok (), change db)) fs else (.error .database, fs)
    (answer, c.close fs)

end Connection

/-! ## Stamps -/

namespace Files

/-- The stamp of the database at a path; none if nothing is there. -/
def readStamp (path : String) : FileTask (Option String) := do
  if !(← get).exists? path then return none
  let c ← connectToRead path
  let c ← c.enter
  return (← c.read).readStamp

/-- Stamp the database at a path, making directory and file if need be. -/
def writeStamp (path version : String) : FileTask Unit := do
  makeParent path
  let c ← connect path
  c.changeAndClose (·.writeStamp version)

end Files

end Replica
