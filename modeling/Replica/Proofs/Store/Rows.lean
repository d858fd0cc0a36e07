/-
Replica.Proofs.Store.Rows — the rows of a model are its own.

When no two models share a table (`Registry.Separate`), putting other rows in a model's table
leaves the rows of every other model alone (`rows_setRows`). Opening a store leaves the tables
that are there and adds those that are missing (`Store.openOn_tables`), and over nothing every
model has a table without rows (`Store.rows_openOn`).
-/
import Replica.Store.Basic
import Mathlib.Data.List.Nodup

namespace Replica

/-- No two models share a table, and none shares the table of the version stamp. -/
structure Registry.Separate (r : Registry) : Prop where
  distinct : (r.modelNames.map Database.tableName).Nodup
  stamp : ∀ name ∈ r.modelNames, Database.sharesStamp name = false

namespace Database

variable {r : Registry} {db db' : Database} {model : String}

/-! ## One table -/

theorem tableName_eq_iff (hr : r.Separate) {a b : String} (ha : a ∈ r.modelNames)
    (hb : b ∈ r.modelNames) : tableName a = tableName b ↔ a = b :=
  ⟨fun h => List.inj_on_of_nodup_map hr.distinct ha hb h, fun h => h ▸ rfl⟩

theorem rows_setRows (hr : r.Separate) {written : String} (hwritten : written ∈ r.modelNames)
    (hmodel : model ∈ r.modelNames) (rows : Dict Row) :
    (db.setRows written rows).rows model = if written = model then .ok rows else db.rows model := by
  have hstamp := hr.stamp model hmodel
  rw [Database.rows, Database.rows, hstamp, setRows, Dict.get?_insert]
  by_cases h : written = model
  · simp [h]
  · have hne : tableName written ≠ tableName model := fun e =>
      h ((tableName_eq_iff hr hwritten hmodel).1 e)
    simp [h, hne]

theorem mem_of_guardModel (h : guardModel r model = .ok ()) : model ∈ r.modelNames := by
  unfold guardModel at h
  split at h
  · exact Registry.contains_iff.1 ‹_›
  · simp at h

/-! ## Opening -/

/-- Creating a table adds one without rows, or leaves the one that is there. -/
theorem get?_createTable (h : db.createTable model = .ok db') (name : String) :
    db'.tables.get? name = (db.tables.get? name).or
      (if sharesStamp model = false ∧ tableName model = name then some Dict.empty else none) := by
  rw [createTable] at h
  split at h
  · cases h
  · split at h
    · rename_i hshares
      cases h
      simp [hshares]
    · rename_i hfree
      split at h
      · rename_i rows hrows
        cases h
        by_cases hname : tableName model = name
        · rw [← hname, hrows, Option.some_or]
        · simp [hname]
      · rename_i hnone
        cases h
        rw [Dict.get?_insert]
        by_cases hname : tableName model = name
        · simp [← hname, hnone, hfree]
        · simp [hname]

/-- Creating tables adds those that are not there, without rows. -/
theorem get?_createTables {models : List String} (h : db.createTables models = (db', .ok ()))
    (name : String) : db'.tables.get? name = (db.tables.get? name).or
      (if ∃ model ∈ models, sharesStamp model = false ∧ tableName model = name
        then some Dict.empty else none) := by
  induction models generalizing db with
  | nil =>
    cases h
    simp
  | cons model rest ih =>
    rw [createTables] at h
    split at h
    · rename_i next hcreate
      rw [ih h, get?_createTable hcreate, Option.or_assoc]
      by_cases hname : sharesStamp model = false ∧ tableName model = name
      · simp [hname]
      · simp [hname]
    · cases h

/-- Tables are created unless a name is reserved. -/
theorem createTables_ok {models : List String} (h : ∀ model ∈ models, isReserved model = false)
    (db : Database) : ∃ db', db.createTables models = (db', .ok ()) := by
  induction models generalizing db with
  | nil => exact ⟨db, rfl⟩
  | cons model rest ih =>
    obtain ⟨hmodel, hrest⟩ := List.forall_mem_cons.1 h
    have hcreate : ∃ next, db.createTable model = .ok next := by
      rw [createTable, if_neg (by simp [hmodel])]
      split
      · exact ⟨_, rfl⟩
      · split <;> exact ⟨_, rfl⟩
    obtain ⟨next, hnext⟩ := hcreate
    rw [createTables, hnext]
    exact ih hrest next

end Database

/-- What a store has that was opened: the tables that were there, and an empty one for every
model that had none. -/
theorem Store.openOn_tables {r : Registry} {db left : Database} {s : Store}
    (h : openOn r db = (.ok s, left)) : s = opened r left ∧ ∀ name,
      left.tables.get? name = (db.tables.get? name).or
        (if ∃ model ∈ r.modelNames, Database.sharesStamp model = false
          ∧ Database.tableName model = name then some Dict.empty else none) := by
  rw [openOn, Database.prepare] at h
  split at h
  · rename_i db' hcreate
    cases h
    have htables := Database.get?_createTables hcreate
    exact ⟨rfl, htables⟩
  · cases h

/-- A store that was opened over nothing has an empty table for every model. -/
theorem Store.rows_openOn {r : Registry} (hr : r.Separate) {s : Store} {left : Database}
    (h : openOn r .empty = (.ok s, left)) :
    ∃ db, s = opened r db ∧ ∀ model ∈ r.modelNames, db.rows model = .ok Dict.empty := by
  obtain ⟨rfl, htables⟩ := openOn_tables h
  refine ⟨left, rfl, fun model hmodel => ?_⟩
  have hfree := hr.stamp model hmodel
  have htable := htables (Database.tableName model)
  rw [if_pos ⟨model, hmodel, hfree, rfl⟩] at htable
  rw [Database.rows, hfree, htable]
  rfl

end Replica
