/-
Replica.Proofs.Store.Work — what the author of a transaction can do, and what it touches.

The author of a transaction calls the operations on rows one after the other. Which one comes
next may depend on the answers before, and an error may be passed on or put up with. `Work`
is a transaction in this form, and `Work.run` carries it out.

A statement touches the table of its model or nothing, and through a model that shares the
table of the stamp it may touch the stamp (`Touches`). This is all that it can do, whether or
not models share tables (`touches_save`, `touches_delete`, `touches_updateFields`), so work
is a sequence of touches of the tables of the models that it writes to (`Work.touched`).

Where no model shares the table of the stamp (`Registry.SparesStamp`), no work touches it
(`Work.keepsStamp`). Creating the tables of a store does not touch it either
(`readStamp_prepare`).
-/
import Mathlib.Logic.Relation
import Replica.Proofs.Store.Rows

namespace Replica

/-! ## Work -/

/-- The work of one transaction, call by call. -/
inductive Work (α : Type) where
  /-- The work is done. -/
  | done (answer : α)
  /-- The work is given up. -/
  | failed (e : StoreError)
  | save (record : Record) (version : Int) (next : Except StoreError Unit → Work α)
  | delete (model id : String) (next : Except StoreError Bool → Work α)
  | get (model id : String) (next : Except StoreError (Option Record) → Work α)
  | versionOf (model id : String) (next : Except StoreError (Option Int) → Work α)
  | updateFields (model id : String) (patch : List (String × Json))
      (next : Except StoreError Bool → Work α)

namespace Work

/-- The answer of a call, and the database that it leaves. -/
def answered {β : Type} (db : Database) : Except StoreError (β × Database) →
    Except StoreError β × Database
  | .ok (b, after) => (.ok b, after)
  | .error e => (.error e, db)

/-- Carry out the calls. One that fails leaves the database as it was. -/
def run {α : Type} : Work α → Transaction α
  | done answer, _, db => .ok (answer, db)
  | failed e, _, _ => .error e
  | save record version next, r, db =>
    let (answer, after) := answered db ((db.save r record version).map ((), ·))
    (next answer).run r after
  | delete model id next, r, db =>
    let (answer, after) := answered db (db.delete r model id)
    (next answer).run r after
  | get model id next, r, db => (next (db.get r model id)).run r db
  | versionOf model id next, r, db => (next (db.versionOf r model id)).run r db
  | updateFields model id patch next, r, db =>
    let (answer, after) := answered db (db.updateFields r model id patch)
    (next answer).run r after

end Work

/-! ## Touches -/

namespace Database

variable {r : Registry} {db db' db'' : Database} {model other : String}

/-- What a statement on a model can leave. -/
inductive Touches (r : Registry) (model : String) (db : Database) : Database → Prop
  | nothing : Touches r model db db
  | rows (hmodel : model ∈ r.modelNames)
    (htable : (db.tables.get? (tableName model)).isSome = true) (rows : Dict Row) :
    Touches r model db (db.setRows model rows)
  | stamp (hmodel : model ∈ r.modelNames) (hshares : sharesStamp model = true)
    (stamp : Option String) : Touches r model db { db with stamp := some stamp }

/-- A model whose rows can be read has a table. -/
theorem isSome_table_of_rows {rows : Dict Row} (h : db.rows model = .ok rows) :
    (db.tables.get? (tableName model)).isSome = true := by
  rw [Database.rows] at h
  split at h
  · cases h
  · split at h
    · rename_i htable
      rw [htable]
      rfl
    · cases h

theorem touches_save {record : Record} {version : Int}
    (h : db.save r record version = .ok db') : Touches r record.model db db' := by
  simp only [save, bind, Except.bind] at h
  split at h
  · cases h
  · rename_i hguard
    split at h
    · cases h
    · rename_i rows hrows
      cases h
      exact .rows (mem_of_guardModel hguard) (isSome_table_of_rows hrows) _

theorem touches_delete {id : String} {answer : Bool}
    (h : db.delete r model id = .ok (answer, db')) : Touches r model db db' := by
  simp only [delete, bind, Except.bind] at h
  split at h
  · cases h
  · rename_i hguard
    have hmodel := mem_of_guardModel hguard
    split at h
    · rename_i hshares
      split at h
      · cases h
      · split at h
        · cases h
          exact .stamp hmodel hshares none
        · cases h
          exact .nothing
    · split at h
      · cases h
      · rename_i rows hrows
        cases h
        exact .rows hmodel (isSome_table_of_rows hrows) _

theorem touches_updateFields {id : String} {patch : List (String × Json)} {answer : Bool}
    (h : db.updateFields r model id patch = .ok (answer, db')) : Touches r model db db' := by
  simp only [updateFields, bind, Except.bind] at h
  split at h
  · cases h
  · rename_i hguard
    split at h
    · cases h
    · rename_i rows hrows
      split at h
      · cases h
        exact .nothing
      · split at h
        · cases h
        · cases h
          exact .rows (mem_of_guardModel hguard) (isSome_table_of_rows hrows) _

/-! ### What a touch leaves alone -/

/-- The table of a model is not touched through a model of another table. -/
theorem Touches.table_other (h : Touches r model db db')
    (hne : tableName model ≠ tableName other) :
    db'.tables.get? (tableName other) = db.tables.get? (tableName other) := by
  cases h with
  | nothing => rfl
  | rows _ _ rows => rw [setRows, Dict.get?_insert, if_neg hne]
  | stamp _ _ stamp => rfl

/-- The stamp is not touched through a model that does not share its table. -/
theorem Touches.stamp_eq (h : Touches r model db db')
    (hfree : model ∈ r.modelNames → sharesStamp model = false) : db'.stamp = db.stamp := by
  cases h with
  | nothing => rfl
  | rows _ _ rows => rfl
  | stamp hmodel hshares stamp =>
    rw [hfree hmodel] at hshares
    cases hshares

/-- No table comes or goes. -/
theorem Touches.isSome_table (h : Touches r model db db') (name : String) :
    (db'.tables.get? name).isSome = (db.tables.get? name).isSome := by
  cases h with
  | nothing => rfl
  | rows _ htable rows =>
    rw [setRows, Dict.get?_insert]
    split
    · rename_i hname
      rw [← hname, htable]
      rfl
    · rfl
  | stamp _ _ stamp => rfl

/-! ### One touch after the other -/

/-- Touches of the tables of models that pass a test. -/
def Touched (r : Registry) (p : String → Prop) : Database → Database → Prop :=
  Relation.ReflTransGen fun db db' => ∃ model, p model ∧ Touches r model db db'

variable {p : String → Prop}

theorem Touches.before (h : Touches r model db db') (hp : p model)
    (hrest : Touched r p db' db'') : Touched r p db db'' :=
  .head ⟨model, hp, h⟩ hrest

theorem Touched.table_other (h : Touched r p db db')
    (hne : ∀ model, p model → tableName model ≠ tableName other) :
    db'.tables.get? (tableName other) = db.tables.get? (tableName other) := by
  induction h with
  | refl => rfl
  | tail _ htouch ih =>
    obtain ⟨model, hp, htouch⟩ := htouch
    exact (htouch.table_other (hne model hp)).trans ih

theorem Touched.stamp_eq (h : Touched r p db db')
    (hfree : ∀ model, p model → model ∈ r.modelNames → sharesStamp model = false) :
    db'.stamp = db.stamp := by
  induction h with
  | refl => rfl
  | tail _ htouch ih =>
    obtain ⟨model, hp, htouch⟩ := htouch
    exact (htouch.stamp_eq (hfree model hp)).trans ih

theorem Touched.isSome_table (h : Touched r p db db') (name : String) :
    (db'.tables.get? name).isSome = (db.tables.get? name).isSome := by
  induction h with
  | refl => rfl
  | tail _ htouch ih =>
    obtain ⟨model, -, htouch⟩ := htouch
    exact (htouch.isSome_table name).trans ih

end Database

namespace Work

variable {α : Type}

/-- All rows that the work may write are of models that pass a test; it may read any. -/
def WritesOnly (p : String → Prop) : Work α → Prop
  | done _ => True
  | failed _ => True
  | save record _ next => p record.model ∧ ∀ answer, (next answer).WritesOnly p
  | delete model _ next => p model ∧ ∀ answer, (next answer).WritesOnly p
  | get _ _ next => ∀ answer, (next answer).WritesOnly p
  | versionOf _ _ next => ∀ answer, (next answer).WritesOnly p
  | updateFields model _ _ next => p model ∧ ∀ answer, (next answer).WritesOnly p

theorem writesOnly_any (w : Work α) : w.WritesOnly fun _ => True := by
  induction w with
  | done answer => trivial
  | failed e => trivial
  | save record version next ih => exact ⟨trivial, ih⟩
  | delete model id next ih => exact ⟨trivial, ih⟩
  | get model id next ih => exact ih
  | versionOf model id next ih => exact ih
  | updateFields model id patch next ih => exact ⟨trivial, ih⟩

/-- Work touches the tables of the models that it writes to. -/
theorem touched {p : String → Prop} {r : Registry} {w : Work α} (hw : w.WritesOnly p)
    {db db' : Database} {a : α} (h : w.run r db = .ok (a, db')) :
    Database.Touched r p db db' := by
  induction w generalizing db with
  | done answer =>
    cases h
    exact .refl
  | failed e => cases h
  | save record version next ih =>
    obtain ⟨hp, hnext⟩ := hw
    rw [run] at h
    cases hsave : db.save r record version with
    | error e =>
      rw [hsave] at h
      exact ih _ (hnext _) h
    | ok after =>
      rw [hsave] at h
      exact (Database.touches_save hsave).before hp (ih _ (hnext _) h)
  | delete model id next ih =>
    obtain ⟨hp, hnext⟩ := hw
    rw [run] at h
    cases hdelete : db.delete r model id with
    | error e =>
      rw [hdelete] at h
      exact ih _ (hnext _) h
    | ok result =>
      rw [hdelete] at h
      exact (Database.touches_delete hdelete).before hp (ih _ (hnext _) h)
  | get model id next ih => exact ih _ (hw _) h
  | versionOf model id next ih => exact ih _ (hw _) h
  | updateFields model id patch next ih =>
    obtain ⟨hp, hnext⟩ := hw
    rw [run] at h
    cases hupdate : db.updateFields r model id patch with
    | error e =>
      rw [hupdate] at h
      exact ih _ (hnext _) h
    | ok result =>
      rw [hupdate] at h
      exact (Database.touches_updateFields hupdate).before hp (ih _ (hnext _) h)

end Work

/-! ## The stamp -/

/-- No model shares the table of the version stamp. -/
def Registry.SparesStamp (r : Registry) : Prop :=
  ∀ model ∈ r.modelNames, Database.sharesStamp model = false

namespace Database

variable {r : Registry} {db db' : Database} {model id : String}

theorem readStamp_createTable (h : db.createTable model = .ok db') :
    db'.readStamp = db.readStamp := by
  rw [createTable] at h
  split at h
  · cases h
  · split at h
    · cases h
      rfl
    · split at h <;> cases h <;> rfl

theorem readStamp_createTables : ∀ (models : List String) (db : Database),
    (db.createTables models).1.readStamp = db.readStamp
  | [], db => rfl
  | model :: rest, db => by
    rw [createTables]
    split
    · rename_i db' hcreate
      rw [readStamp_createTables rest db', readStamp_createTable hcreate]
    · rfl

/-- Creating the tables of a store leaves the stamp as it was. -/
theorem readStamp_prepare (db : Database) (r : Registry) :
    (db.prepare r).1.readStamp = db.readStamp := by
  rw [prepare, readStamp_createTables, createStampTable, readStamp, readStamp]
  cases db.stamp <;> rfl

end Database

/-- A transaction that leaves the stamp as it was. -/
def Transaction.KeepsStamp {α : Type} (work : Transaction α) : Prop :=
  ∀ {r : Registry} {db db' : Database} {a : α}, r.SparesStamp → work r db = .ok (a, db') →
    db'.readStamp = db.readStamp

/-- What is refused where nothing can be written changes nothing. -/
theorem Transaction.KeepsStamp.readOnly {α : Type} {work : Transaction α} (h : work.KeepsStamp) :
    work.readOnly.KeepsStamp := by
  intro r db db' a hr hwork
  simp only [Transaction.readOnly, bind, Except.bind] at hwork
  split at hwork
  · cases hwork
  · rename_i answer hok
    split at hwork
    · cases hwork
      exact h hr hok
    · cases hwork

/-- No work on rows touches the stamp. -/
theorem Work.keepsStamp {α : Type} (w : Work α) : w.run.KeepsStamp := by
  intro r db db' a hr h
  have hstamp := (touched w.writesOnly_any h).stamp_eq fun model _ hmodel => hr model hmodel
  rw [Database.readStamp, Database.readStamp, hstamp]

end Replica
