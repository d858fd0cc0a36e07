/-
Replica.Store.Database — one table of rows per model, and the version stamp.

Table names ignore the case of ASCII letters, so two models whose names differ only in
case have one table. The version stamp lives in a table of its own called
`model_version`, which has no column for fields: a model of that name shares it, and
every statement that needs fields fails there. Names that start with `sqlite_` are
reserved.

Each operation is one statement of a transaction: it answers with the database that
follows, or fails and leaves the one before.

The fields of a row are kept as their text. Conditions and the order of a query are the
database's own and see the fields as they were written; who is answered with fields gets
them as the text is read (`decode`), and so does an update of single fields, which writes
the whole row again. Rows that nest deeper than 1000, which the database itself cannot
look into, are left out: they are rows like any other here.

Tables have the columns that stores give them. Databases of another make, with other
columns or with views and triggers, are left out.
-/
import Replica.Json.ReadBack
import Replica.Record.Basic
import Replica.Store.Statement

namespace Replica

/-- A stored record: its fields and the version it was last written with. -/
structure Row where
  fields : Fields
  version : Int
  deriving DecidableEq, Inhabited

/-- The content of a database. -/
structure Database where
  /-- The version table, if it exists, and the stamp in it. -/
  stamp : Option (Option String)
  /-- The rows of each table by identifier; tables by name in lower case. -/
  tables : Dict (Dict Row)
  deriving DecidableEq

namespace Database

def empty : Database := ⟨none, Dict.empty⟩

instance : Inhabited Database := ⟨empty⟩

/-! ## Tables -/

/-- The name of a model's table, as names are told apart. -/
def tableName (model : String) : String := String.ofList (model.toList.map Char.toLower)

/-- The table of the version stamp. -/
def stampTable : String := "model_version"

/-- The identifier of the row that holds the stamp. -/
def stampRow : String := "current"

/-- Whether a model shares the table of the version stamp. -/
def sharesStamp (model : String) : Bool := tableName model = stampTable

/-- Whether a table name is reserved. -/
def isReserved (model : String) : Bool := "sqlite_".toList.isPrefixOf (tableName model).toList

/-- The stamp, if the version table and its row exist. -/
def readStamp (db : Database) : Option String := db.stamp.join

/-- Write the stamp, creating its table if need be. -/
def writeStamp (db : Database) (version : String) : Database :=
  { db with stamp := some (some version) }

/-- Create the version table unless it exists. -/
def createStampTable (db : Database) : Database :=
  { db with stamp := some (db.stamp.getD none) }

/-- Create a model's table unless a table of that name exists. -/
def createTable (db : Database) (model : String) : Except StoreError Database :=
  if isReserved model then .error .database
  else if sharesStamp model then .ok db
  else
    match db.tables.get? (tableName model) with
    | some _ => .ok db
    | none => .ok { db with tables := db.tables.insert (tableName model) Dict.empty }

/-- Create the tables of a list of models. What was created before a failure stays. -/
def createTables (db : Database) : List String → Database × Except StoreError Unit
  | [] => (db, .ok ())
  | model :: rest =>
    match db.createTable model with
    | .ok db => db.createTables rest
    | .error e => (db, .error e)

/-- Create the version table and a table for each model of a registry. -/
def prepare (db : Database) (r : Registry) : Database × Except StoreError Unit :=
  db.createStampTable.createTables r.modelNames

/-! ## Rows -/

/-- The rows of a model's table. -/
def rows (db : Database) (model : String) : Except StoreError (Dict Row) :=
  if sharesStamp model then .error .database
  else
    match db.tables.get? (tableName model) with
    | some rows => .ok rows
    | none => .error .database

def setRows (db : Database) (model : String) (rows : Dict Row) : Database :=
  { db with tables := db.tables.insert (tableName model) rows }

/-- Only registered models have rows. -/
def guardModel (r : Registry) (model : String) : Except StoreError Unit :=
  if r.contains model then .ok () else .error (.unknownModel model)

/-- Fields as the text of their row is read. -/
def decode (fields : Fields) : Except StoreError Fields :=
  if fields.isReadable then .ok fields.reread else .error .serialization

/-- The record of a row. -/
def recordOf (model id : String) (row : Row) : Except StoreError Record :=
  (decode row.fields).map (Record.mk model id)

/-- Write a record in place of the row with its identifier. -/
def save (r : Registry) (record : Record) (version : Int) (db : Database) :
    Except StoreError Database := do
  guardModel r record.model
  let rows ← db.rows record.model
  return db.setRows record.model (rows.insert record.id ⟨record.fields, version⟩)

/-- Remove a row; the answer says whether it was there. -/
def delete (r : Registry) (model id : String) (db : Database) :
    Except StoreError (Bool × Database) := do
  guardModel r model
  if sharesStamp model then
    match db.stamp with
    | none => throw .database
    | some stamp =>
      if id = stampRow then return (stamp.isSome, { db with stamp := some none })
      else return (false, db)
  else
    let rows ← db.rows model
    return (rows.contains id, db.setRows model (rows.erase id))

def get (r : Registry) (model id : String) (db : Database) :
    Except StoreError (Option Record) := do
  guardModel r model
  let rows ← db.rows model
  match rows.get? id with
  | none => return none
  | some row => return some (← recordOf model id row)

/-- The version a record was last written with. -/
def versionOf (r : Registry) (model id : String) (db : Database) :
    Except StoreError (Option Int) := do
  guardModel r model
  if sharesStamp model then
    match db.stamp with
    | none => throw .database
    | some stamp => if id = stampRow ∧ stamp.isSome then throw .database else return none
  else
    let rows ← db.rows model
    return (rows.get? id).map Row.version

/-- Overwrite single fields of a record and leave the version alone; the other fields are
written again as they are read. The answer says whether the record was there. -/
def updateFields (r : Registry) (model id : String) (patch : List (String × Json))
    (db : Database) : Except StoreError (Bool × Database) := do
  guardModel r model
  let rows ← db.rows model
  match rows.get? id with
  | none => return (false, db)
  | some row =>
    let record ← recordOf model id row
    return (true, db.setRows model (rows.insert id { row with fields := (record.setAll patch).fields }))

/-! ## Queries -/

/-- Whether one sort cell may stand before another: missing ones come last. -/
def sortLe (a b : Cell) : Bool :=
  if a.isMissing then b.isMissing
  else b.isMissing || a.order b ≠ .gt

/-- The rows of a table in the order of a query: by identifier, or by the sort field
and then by identifier. -/
def inOrder (bySort : Bool) (rows : Dict Row) : List (String × Row) :=
  if bySort then
    rows.entries.mergeSort fun a b =>
      sortLe (.ofField a.2.fields FieldName.sort) (.ofField b.2.fields FieldName.sort)
  else rows.entries

/-- The records of listed rows, if all of them can be read. -/
def recordsOf (model : String) : List (String × Row) → Except StoreError (List Record)
  | [] => .ok []
  | (id, row) :: rest => do
    let record ← recordOf model id row
    return record :: (← recordsOf model rest)

/-- The records of a model that a predicate selects, if its statement is not too large. -/
def query (r : Registry) (model : String) (p : Predicate) (db : Database) :
    Except StoreError (List Record) := do
  let caps ← (r.capabilities model).mapError StoreError.ofSchema
  let condition ← Condition.ofPredicate p
  if !condition.fits then throw .database
  let rows ← db.rows model
  let selected := (inOrder caps.sort rows).filter fun e => condition.selects e.1 e.2.fields
  recordsOf model selected

end Database

end Replica
