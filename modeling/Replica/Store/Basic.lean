/-
Replica.Store.Basic — the local store that a sync cycle writes to.

`LocalStore` says what a cycle needs of a store: a look-up, and a transaction that
either takes effect as a whole or not at all. `Store` is the store over a database;
once opening it has failed, every operation fails with the reason.
-/
import Replica.Store.Database

namespace Replica

/-- The work of one transaction: it sees the store's registry and database and answers
with a value and the database that follows. -/
abbrev Transaction (α : Type) := Registry → Database → Except StoreError (α × Database)

namespace Transaction

/-- Several pieces of work in order, each on what the one before has left. -/
def inOrder {α : Type} : List (Transaction α) → Transaction (List α)
  | [], _, db => .ok ([], db)
  | work :: rest, r, db => do
    let (answer, db) ← work r db
    let (answers, db) ← inOrder rest r db
    return (answer :: answers, db)

/-- Work on a database that cannot be written: a change is refused, reading goes on. -/
def readOnly {α : Type} (work : Transaction α) : Transaction α := fun r db => do
  let (answer, after) ← work r db
  if after = db then return (answer, after) else throw .database

end Transaction

/-- A transactional store of records. -/
class LocalStore (σ : Type) where
  /-- Whether the store accepts operations. -/
  ready : σ → Except StoreError Unit
  /-- Run a transaction; when it fails, the content stays as it was. -/
  transact : {α : Type} → Transaction α → σ → Except StoreError α × σ
  /-- The records of a model that a predicate selects. -/
  query : String → Predicate → σ → Except StoreError (List Record) × σ

/-- A store whose opening has ended. -/
inductive Store where
  | opened (registry : Registry) (content : Database)
  | failed (registry : Registry) (reason : String)

namespace Store

def registry : Store → Registry
  | opened r _ => r
  | failed r _ => r

def ready : Store → Except StoreError Unit
  | opened _ _ => .ok ()
  | failed _ reason => .error (.initialization reason)

/-- Run a transaction; when it fails, the content stays as it was. -/
def transact {α : Type} (work : Transaction α) : Store → Except StoreError α × Store
  | opened r db =>
    match work r db with
    | .ok (a, db') => (.ok a, opened r db')
    | .error e => (.error e, opened r db)
  | failed r reason => (.error (.initialization reason), failed r reason)

/-- The records of a model that a predicate selects. -/
def query (model : String) (p : Predicate) : Store → Except StoreError (List Record)
  | opened r db => db.query r model p
  | failed _ reason => .error (.initialization reason)

instance : LocalStore Store where
  ready := ready
  transact := transact
  query model p s := (s.query model p, s)

/-! ## Transactions of one kind of operation -/

def saveAll : List Record → Transaction Unit
  | [], _, db => .ok ((), db)
  | record :: rest, r, db => do saveAll rest r (← db.save r record 0)

def deleteAll : List Record → Transaction Unit
  | [], _, db => .ok ((), db)
  | record :: rest, r, db => do
    let (_, db) ← db.delete r record.model record.id
    deleteAll rest r db

def getOne (model id : String) : Transaction (Option Record) := fun r db => do
  return (← db.get r model id, db)

/-- Open a store over a database, creating the missing tables. The second part is the
content that the database is left with. -/
def openOn (r : Registry) (db : Database) : Except StoreError Store × Database :=
  match db.prepare r with
  | (db, .ok ()) => (.ok (opened r db), db)
  | (db, .error e) => (.error e, db)

/-- Every registered model with its records in query order and the versions they were last
written with, or why they cannot be read. -/
def listing (s : Store) : List (String × Except StoreError (List (Record × Option Int))) :=
  s.registry.models.map fun m =>
    (m.name,
      match s with
      | opened r db => do
        let records ← db.query r m.name .all
        records.mapM fun record => do return (record, ← db.versionOf r m.name record.id)
      | failed _ reason => .error (.initialization reason))

end Store

/-! ## A store with planned failures -/

/-- A store of which some transactions and look-ups are planned to be refused; both are
counted from zero. -/
structure FaultyStore where
  store : Store
  transactions : Nat
  lookups : Nat
  refusedTransactions : List Nat
  refusedLookups : List Nat

namespace FaultyStore

/-- A store before its first operation. -/
def plan (store : Store) (refusedTransactions refusedLookups : List Nat) : FaultyStore :=
  ⟨store, 0, 0, refusedTransactions, refusedLookups⟩

instance : LocalStore FaultyStore where
  ready s := s.store.ready
  transact work s :=
    let counted := { s with transactions := s.transactions + 1 }
    if s.refusedTransactions.contains s.transactions then
      (.error (.invalidData (.refused "disk full")), counted)
    else
      let (answer, store) := s.store.transact work
      (answer, { counted with store := store })
  query model p s :=
    let counted := { s with lookups := s.lookups + 1 }
    if s.refusedLookups.contains s.lookups then
      (.error (.invalidData (.refused "query refused")), counted)
    else (s.store.query model p, counted)

end FaultyStore

end Replica
