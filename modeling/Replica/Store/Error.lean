/-
Replica.Store.Error — why an operation on the local store or its settings fails.

Faults that the database, the operating system or a library reports carry no further
cause here; every other fault names what it is about.
-/
import Replica.Schema.Registry
import Replica.Text.Integer

namespace Replica

/-- What is wrong with data that was handed in or read back. -/
inductive DataFault where
  /-- A predicate names a field that cannot stand in a query. -/
  | unsupportedField (name : String)
  /-- A settings key does not accept writes. -/
  | readOnlyKey (key : String)
  /-- The stored time of the last sync is no number. -/
  | badLastSync (raw : String) (fault : Text.IntegerFault)
  /-- The stored extra version is no number. -/
  | badExtraVersion (raw : String) (fault : Text.IntegerFault)
  /-- The caller gave up on its own. -/
  | refused (reason : String)
  deriving DecidableEq, Repr

namespace DataFault

def message : DataFault → String
  | unsupportedField name => "unsupported field name in predicate: " ++ Text.quoted name
  | readOnlyKey key => key ++ " is read-only"
  | badLastSync raw fault => "last_sync " ++ Text.quoted raw ++ ": " ++ fault.message
  | badExtraVersion raw fault => "extra_version " ++ Text.quoted raw ++ ": " ++ fault.message
  | refused reason => reason

end DataFault

/-- Why a path does not lead to a file. -/
inductive PathFault where
  /-- Something on the way is not there. -/
  | missing
  /-- Something on the way is a file. -/
  | throughFile
  /-- It leads to a directory. -/
  | isDirectory
  /-- It leads to a file that may not be written. -/
  | permissionDenied
  /-- A name on the way is longer than names may be. -/
  | nameTooLong
  /-- No path contains a NUL character. -/
  | nulCharacter
  deriving DecidableEq, Repr

namespace PathFault

def message : PathFault → String
  | missing => "No such file or directory (os error 2)"
  | throughFile => "Not a directory (os error 20)"
  | isDirectory => "Is a directory (os error 21)"
  | permissionDenied => "Permission denied (os error 13)"
  | nameTooLong => "File name too long (os error 36)"
  | nulCharacter => "file name contained an unexpected NUL byte"

end PathFault

/-- Why a snapshot could not be put in place. -/
inductive SeedFault where
  /-- There is no file at the snapshot's path. -/
  | snapshotMissing (path : String)
  /-- The snapshot is no regular file. -/
  | snapshotNotRegular (path : String)
  /-- The snapshot at a path cannot be copied to where it has to go. -/
  | copyBlocked (path : String) (fault : PathFault)
  deriving DecidableEq, Repr

namespace SeedFault

def message : SeedFault → String
  | snapshotMissing path => "bundled snapshot not found: " ++ path
  | snapshotNotRegular path =>
    "copy " ++ path ++ " failed: the source path is neither a regular file nor a symlink to a regular file"
  | copyBlocked path fault => "copy " ++ path ++ " failed: " ++ fault.message

end SeedFault

/-- Why an operation on the store or its settings fails. -/
inductive StoreError where
  /-- The database refuses a statement or a file. -/
  | database
  /-- The text of a stored row cannot be read. -/
  | serialization
  /-- A file operation fails. -/
  | io
  /-- The model is not registered. -/
  | unknownModel (name : String)
  /-- The store never became usable. -/
  | initialization (reason : String)
  /-- The database could not be seeded. -/
  | bootstrap (fault : SeedFault)
  /-- The data is not acceptable. -/
  | invalidData (fault : DataFault)
  deriving DecidableEq, Repr

namespace StoreError

def message : StoreError → String
  | database => "database error"
  | serialization => "serialization error"
  | io => "IO error"
  | unknownModel name => "unknown model: " ++ name
  | initialization reason => "store initialization failed: " ++ reason
  | bootstrap fault => "bootstrap failed: " ++ fault.message
  | invalidData fault => "invalid data: " ++ fault.message

/-- A failed look-up in the registry, as an error of the store. -/
def ofSchema : SchemaError → StoreError
  | .unknownModel name => unknownModel name
  | e => invalidData (.refused e.reason)

end StoreError

end Replica
