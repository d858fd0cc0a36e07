/-
Replica.Seed.Files — the files that seeding works on.

A path is a text whose parts are separated by slashes; empty parts and `.` stay where
they are and `..` goes back. It leads to a place, the shortest path there. A file has
a number of its own and a name, its place: moving a file gives it another name, and a
file without a name is still there for whoever holds it open.

Every file may be read, and a file that is read-only may not be written; it can still be
moved or removed, since every directory may be written. A copy is read-only if its original
is. Links, files that may not be read, directories that may not be written and volumes that
are full are left out.

Tasks on files answer with a value or an error, and with the files they leave; an error
does not take back what was done before it.

Main statements:
* `file_setFile` — a file is what it was last made;
* `contentAt_erase` — an erased name leads to no file.
-/
import Replica.Store.Database

namespace Replica

/-- What a file holds. -/
inductive FileContent where
  | text (content : String)
  | database (content : Database)
  /-- A log with changes of a database, and what the database is with them. -/
  | log (content : Database)
  /-- A journal of a change of a database, and what the database was before; nothing if its
  file was still empty. -/
  | journal (before : Option Database)
  /-- The index that belongs to the log of a database. -/
  | logIndex
  deriving DecidableEq

/-- A file. -/
structure StoredFile where
  content : FileContent
  /-- Whether it may not be written. -/
  readOnly : Bool
  deriving DecidableEq

/-- Files and directories. -/
structure Files where
  /-- The number of the file at each place. -/
  names : Dict Nat
  /-- The files, by number. -/
  stored : List StoredFile
  directories : List String
  /-- The numbers of the files whose log a store has open, once for each such store. -/
  heldLogs : List Nat
  deriving DecidableEq

/-- A task on files. -/
abbrev FileTask (α : Type) := ExceptT StoreError (StateM Files) α

/-! ## Paths -/

namespace Path

/-- The parts between slashes. -/
def split : List Char → List (List Char)
  | [] => [[]]
  | c :: cs =>
    if c = '/' then [] :: split cs
    else
      match split cs with
      | [] => [[c]]
      | part :: rest => (c :: part) :: rest

/-- The parts of a path. -/
def parts (path : String) : List String := (split path.toList).map String.ofList

/-- Whether a part stays where it is. -/
def isStill (part : String) : Bool := part = "" || part = "."

/-- The parts of a path that go somewhere. -/
def moves (path : String) : List String := (parts path).filter fun part => !isStill part

/-- The place of a name in a directory. -/
def child (directory name : String) : String :=
  if directory = "" then name else directory ++ "/" ++ name

/-- The place without its last name; the topmost directory is its own. -/
def above (place : String) : String :=
  match place.toList.reverse.dropWhile (· ≠ '/') with
  | [] => ""
  | _ :: before => String.ofList before.reverse

/-- The last name of a place. -/
def lastName (place : String) : String :=
  String.ofList (place.toList.reverse.takeWhile (· ≠ '/')).reverse

/-- A file beside another one. -/
def sibling (path ending : String) : String := path ++ "-" ++ ending

/-- The greatest number of bytes of a name. -/
def nameLimit : Nat := 255

/-- The greatest number of bytes of a path. -/
def lengthLimit : Nat := 4095

/-- Whether a name is longer than names may be. -/
def isTooLong (name : String) : Bool := nameLimit < name.utf8ByteSize

/-- Whether a text contains the NUL character. -/
def hasNul (path : String) : Bool := path.toList.contains '\x00'

end Path

/-- What a path leads to. -/
inductive PathTarget where
  | directory (place : String)
  | file (place : String) (number : Nat)
  /-- Nothing yet, in a directory that is there. -/
  | vacant (place : String)
  deriving DecidableEq, Repr

namespace Files

/-- No files in one directory. -/
def within (directory : String) : Files := ⟨Dict.empty, [], [directory], []⟩

/-! ## Places -/

def isDirectory (fs : Files) (place : String) : Bool := place = "" || fs.directories.contains place

/-- The file with a number; without one, an empty file. -/
def file (fs : Files) (number : Nat) : StoredFile :=
  (fs.stored[number]?).getD ⟨.text "", false⟩

def content (fs : Files) (number : Nat) : FileContent := (fs.file number).content

def isReadOnly (fs : Files) (number : Nat) : Bool := (fs.file number).readOnly

def contentAt (fs : Files) (place : String) : Option FileContent :=
  (fs.names.get? place).map fs.content

/-- Whether there is a file at a place that may not be written. -/
def isReadOnlyAt (fs : Files) (place : String) : Bool :=
  (fs.names.get? place).any fs.isReadOnly

def setFile (fs : Files) (number : Nat) (file : StoredFile) : Files :=
  { fs with stored := fs.stored.set number file }

/-- Change what a file holds. -/
def setContent (fs : Files) (number : Nat) (content : FileContent) : Files :=
  fs.setFile number ⟨content, fs.isReadOnly number⟩

/-- Give a place that is vacant a file. -/
def createFile (fs : Files) (place : String) (file : StoredFile) : Files :=
  { fs with
    names := fs.names.insert place fs.stored.length, stored := fs.stored ++ [file] }

/-- Make a file at a place that is vacant. -/
def create (fs : Files) (place : String) (content : FileContent) : Files :=
  fs.createFile place ⟨content, false⟩

/-- Take the name of the file at a place away. -/
def erase (fs : Files) (place : String) : Files := { fs with names := fs.names.erase place }

theorem file_setFile (fs : Files) (number : Nat) (f : StoredFile)
    (h : number < fs.stored.length) : (fs.setFile number f).file number = f := by
  simp [setFile, file, h]

theorem content_setContent (fs : Files) (number : Nat) (c : FileContent)
    (h : number < fs.stored.length) : (fs.setContent number c).content number = c := by
  rw [content, setContent, file_setFile fs number _ h]

theorem contentAt_erase (fs : Files) (place : String) :
    (fs.erase place).contentAt place = none := by
  simp [contentAt, erase, Dict.get?_erase]

/-- Follow parts from a directory. A file ends the path. -/
def follow (fs : Files) (here : String) : List String → Except PathFault PathTarget
  | [] => .ok (.directory here)
  | part :: rest =>
    if Path.isStill part then follow fs here rest
    else if part = ".." then follow fs (Path.above here) rest
    else if Path.isTooLong part then .error .nameTooLong
    else
      let place := Path.child here part
      if fs.isDirectory place then follow fs place rest
      else
        match fs.names.get? place with
        | some number => if rest.isEmpty then .ok (.file place number) else .error .throughFile
        | none => if rest.isEmpty then .ok (.vacant place) else .error .missing

/-- What a path leads to. -/
def find (fs : Files) (path : String) : Except PathFault PathTarget :=
  if Path.hasNul path then .error .nulCharacter
  else if Path.lengthLimit < path.utf8ByteSize then .error .nameTooLong
  else fs.follow "" (Path.parts path)

/-- Whether a path leads to a file or a directory. -/
def exists? (fs : Files) (path : String) : Bool :=
  match fs.find path with
  | .ok (.directory _) => true
  | .ok (.file _ _) => true
  | _ => false

/-! ## Directories -/

/-- Make the directories along parts; those before one that cannot be made stay. -/
def makeAlong (fs : Files) (here : String) : List String → Except StoreError Unit × Files
  | [] => (.ok (), fs)
  | part :: rest =>
    if part = ".." then makeAlong fs (Path.above here) rest
    else
      let place := Path.child here part
      if fs.isDirectory place then makeAlong fs place rest
      else if Path.isTooLong part || fs.names.contains place then (.error .io, fs)
      else makeAlong { fs with directories := fs.directories ++ [place] } place rest

/-- Make the directory that a path lies in. -/
def makeParent (path : String) : FileTask Unit := fun fs =>
  let parent := (Path.moves path).dropLast
  if parent.any Path.hasNul || Path.lengthLimit < path.utf8ByteSize then (.error .io, fs)
  else fs.makeAlong "" parent

/-! ## Files -/

/-- Write a text file, making its directory. -/
def writeText (path text : String) : FileTask Unit := do
  makeParent path
  match (← get).find path with
  | .ok (.file _ number) =>
    if (← get).isReadOnly number then throw .io
    modify (·.setContent number (.text text))
  | .ok (.vacant place) => modify (·.create place (.text text))
  | _ => throw .io

/-- Remove a file; the answer says whether it was there. -/
def unlink (fs : Files) (path : String) : Bool × Files :=
  match fs.find path with
  | .ok (.file place _) => (true, fs.erase place)
  | _ => (false, fs)

/-- Remove a file if it is there; a directory cannot be removed. -/
def discard (path : String) : FileTask Unit := do
  match (← get).find path with
  | .ok (.file place _) => modify (·.erase place)
  | .ok (.directory _) => throw .io
  | _ => pure ()

/-- Copy a file over another one or to a new place, and with it whether it is read-only. The
target is emptied before the source is read, so a file copied over itself is lost. -/
def copy (source target : String) : FileTask Unit := do
  let fs ← get
  match fs.find source with
  | .ok (.file _ number) =>
    match fs.find target with
    | .ok (.file _ overwritten) =>
      if fs.isReadOnly overwritten then
        throw (.bootstrap (.copyBlocked source .permissionDenied))
      let emptied := fs.setContent overwritten (.text "")
      set (emptied.setFile overwritten (emptied.file number))
    | .ok (.vacant place) => set (fs.createFile place (fs.file number))
    | .ok (.directory _) => throw (.bootstrap (.copyBlocked source .isDirectory))
    | .error fault => throw (.bootstrap (.copyBlocked source fault))
  | .ok (.directory _) => throw (.bootstrap (.snapshotNotRegular source))
  | .ok (.vacant _) => throw (.bootstrap (.copyBlocked source .missing))
  | .error fault => throw (.bootstrap (.copyBlocked source fault))

/-- Give a file the name of another one or a new name. -/
def rename (source target : String) : FileTask Unit := do
  let fs ← get
  match fs.find source, fs.find target with
  | .ok (.file old number), .ok (.file new _) =>
    if old = new then pure ()
    else set { fs with names := (fs.names.insert new number).erase old }
  | .ok (.file old number), .ok (.vacant new) =>
    set { fs with names := (fs.names.insert new number).erase old }
  | _, _ => throw .io

end Files

end Replica
