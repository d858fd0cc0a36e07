/-
Replica.Proofs.Store.Tables — the contents that a store can have.

A store of a registry is opened on some database, and transactions go on from there (`Reached`).
Whatever they do, every model has its table, unless it shares the table of the stamp
(`Reached.hasTables`): opening creates the tables that are missing, and no work on rows takes
one away. So the rows of a model can always be read (`Reached.exists_rows`).
-/
import Replica.Proofs.Store.Work
import Replica.Proofs.Store.Transactions

namespace Replica

/-- The contents that a store of a registry can have: what opening it on some database leaves,
and what is left of that by a transaction. -/
inductive Store.Reached (r : Registry) : Database → Prop
  | opened {db left : Database} {s : Store} (h : openOn r db = (.ok s, left)) : Reached r left
  | transacted {α : Type} {db after : Database} {w : Work α} {answer : Except StoreError α}
    (before : Reached r db) (h : (opened r db).transact w.run = (answer, opened r after)) :
    Reached r after

namespace Store

variable {r : Registry} {db after : Database} {α : Type} {w : Work α}
  {answer : Except StoreError α}

/-- What a transaction leaves is touched through the models that it writes to, if it leaves
anything else than what was there. -/
theorem touched_of_transact {p : String → Prop} (hw : w.WritesOnly p)
    (h : (opened r db).transact w.run = (answer, opened r after)) :
    Database.Touched r p db after := by
  rw [transact] at h
  split at h
  · rename_i a db' hrun
    cases h
    exact Work.touched hw hrun
  · cases h
    exact .refl

/-- Every model has a table, unless it shares the one of the stamp. -/
theorem Reached.hasTables (h : Reached r db) {model : String} (hmodel : model ∈ r.modelNames)
    (hfree : Database.sharesStamp model = false) :
    (db.tables.get? (Database.tableName model)).isSome = true := by
  induction h with
  | opened hopen =>
    rw [(openOn_tables hopen).2, if_pos ⟨model, hmodel, hfree, rfl⟩, Option.isSome_or]
    simp
  | @transacted α db after w answer _ htransact ih =>
    rw [(touched_of_transact w.writesOnly_any htransact).isSome_table]
    exact ih

theorem Reached.exists_rows (h : Reached r db) {model : String} (hmodel : model ∈ r.modelNames)
    (hfree : Database.sharesStamp model = false) : ∃ rows, db.rows model = .ok rows := by
  obtain ⟨rows, hrows⟩ := Option.isSome_iff_exists.1 (h.hasTables hmodel hfree)
  refine ⟨rows, ?_⟩
  rw [Database.rows, hfree, hrows]
  rfl

/-! ### Names in capitals -/

/-- A model of the name of the stamp's table in capitals. -/
def capitalStamp : Registry where
  version := "v1"
  models := [.named "MODEL_VERSION"]
  words := by decide +kernel
  distinct := by decide +kernel

theorem reached_capitalStamp (db : Database) : Reached capitalStamp (db.prepare capitalStamp).1 :=
  .opened (show openOn capitalStamp db
    = (.ok (opened _ (db.prepare capitalStamp).1), _) from rfl)

end Store

end Replica
