/-
Replica.Proofs.Store.RowMap — a store is a plain map of rows.

A `RowMap` says which row a model has under an identifier, and nothing else: there are no
tables and no statements. Calls are carried out on it as one would expect of a map, given a way
of reading the fields of a row (`RowMap.calls`). The database is seen as such a map
(`Database.rowMap`), and as long as every registered model has a table, each call has the same
answer on the database and on its map, and leaves the map of what it leaves, if the map reads
fields as the database does (`simulates_rowMap`). So a store that was opened on any database
goes through any transactions as the map of its rows does, and lists at the end what the map
then holds, in order (`refines_map`).

The database reads fields from their text. As long as all values are read as they were
(`Fields.IsExact`), the map is the one whose answers are the fields themselves
(`Work.IsExact.transact`).

This needs that models have tables of their own (`Registry.Separate`) and that no name is
reserved, whatever the case of letters (`capitalNames_refused`).
-/
import Replica.Proofs.Store.Calls
import Replica.Proofs.Store.Listing
import Replica.Proofs.Store.Tables

namespace Replica

/-! ## The map -/

/-- The row of each model under each identifier. -/
def RowMap : Type := String → String → Option Row

namespace RowMap

/-- The map with another row of a model under an identifier, or none. -/
def put (m : RowMap) (model id : String) (row : Option Row) : RowMap := fun other key =>
  if model = other ∧ id = key then row else m other key

/-- A row with the given fields overwritten and its version kept; `id` is no field. -/
def overwrite (row : Row) (patch : List (String × Json)) : Row :=
  { row with fields := row.fields.insertAll (patch.filter fun e => e.1 ≠ FieldName.id) }

/-- A registered model is found in the map. -/
def known {α : Type} (r : Registry) (model : String) (answer : Except StoreError α) :
    Except StoreError α :=
  if model ∈ r.modelNames then answer else .error (.unknownModel model)

/-- A row, if there is one, with its fields as they are read. -/
def readRow (read : Fields → Except StoreError Fields) : Option Row →
    Except StoreError (Option Row)
  | none => .ok none
  | some row => (read row.fields).map fun fields => some { row with fields := fields }

/-- Calls on a map whose fields are read in some way. Those on models that are not registered
change nothing, nor does an update of a row that cannot be read. -/
def calls (r : Registry) (read : Fields → Except StoreError Fields) : Calls RowMap where
  save record version m := (known r record.model (.ok ()),
    if record.model ∈ r.modelNames then m.put record.model record.id (some ⟨record.fields, version⟩)
    else m)
  delete model id m := (known r model (.ok (m model id).isSome),
    if model ∈ r.modelNames then m.put model id none else m)
  get model id m := known r model <|
    (readRow read (m model id)).map (·.map fun row => ⟨model, id, row.fields⟩)
  versionOf model id m := known r model (.ok ((m model id).map Row.version))
  updateFields model id patch m :=
    match known r model (readRow read (m model id)) with
    | .ok row => (.ok row.isSome, m.put model id (row.map (overwrite · patch)))
    | .error e => (.error e, m)

/-- Calls on a map whose fields are read as they are. -/
def plainCalls (r : Registry) : Calls RowMap := calls r .ok

theorem overwrite_eq (row : Row) (patch : List (String × Json)) :
    (overwrite row patch).fields = (Record.setAll ⟨"", "", row.fields⟩ patch).fields := by
  suffices h : ∀ x : Record, (x.setAll patch).fields
      = x.fields.insertAll (patch.filter fun e => e.1 ≠ FieldName.id) from
    (h ⟨"", "", row.fields⟩).symm
  intro x
  induction patch generalizing x with
  | nil => rfl
  | cons e rest ih =>
    have hcons : x.setAll (e :: rest) = (x.set e.1 e.2).setAll rest := rfl
    rw [hcons, ih, Record.set]
    by_cases hid : e.1 = FieldName.id
    · simp [hid]
    · simp [hid, Dict.insertAll]

/-- Overwriting what the text of a row is read as writes the row again. -/
theorem overwrite_reread (row : Row) (patch : List (String × Json)) :
    overwrite row.reread patch = row.rewritten patch := by
  have hfields := overwrite_eq row.reread patch
  rw [Row.rewritten, Row.mk.injEq]
  exact ⟨hfields, rfl⟩

theorem readRow_decode (row : Option Row) : readRow Database.decode row
    = if row.all Row.isReadable then .ok (row.map Row.reread) else .error .serialization := by
  cases row with
  | none => rfl
  | some row =>
    rw [readRow, Database.decode, Option.all_some, Row.isReadable]
    split <;> rfl

end RowMap

/-! ## The map of a database -/

namespace Database

variable {r : Registry} {db db' : Database} {model id : String}

/-- The rows of registered models as a map. -/
def rowMap (r : Registry) (db : Database) : RowMap := fun model id =>
  if model ∈ r.modelNames then db.row? model id else none

/-- Every registered model has a table. -/
def HasTables (r : Registry) (db : Database) : Prop :=
  ∀ model ∈ r.modelNames, ∃ rows, db.rows model = .ok rows

/-- The map is the one of the database, and the database has the tables for it. -/
structure ShowsAs (r : Registry) (db : Database) (m : RowMap) : Prop where
  tables : HasTables r db
  map : db.rowMap r = m

theorem rowMap_eq (hmodel : model ∈ r.modelNames) (id : String) :
    db.rowMap r model id = db.row? model id :=
  if_pos hmodel

theorem HasTables.writable (h : HasTables r db) (hmodel : model ∈ r.modelNames) :
    Writable r db model :=
  ⟨hmodel, h model hmodel⟩

/-- A write to the database is a write to the map. -/
theorem ShowsAs.writes (hr : r.Separate) (h : HasTables r db) {row : Option Row}
    (hwrites : Writes r db db' model id row) (hmodel : model ∈ r.modelNames) :
    ShowsAs r db' ((db.rowMap r).put model id row) := by
  refine ⟨fun other hother => ?_, ?_⟩
  · exact ((hwrites.keeps.writable hr).2 (h.writable hother)).2
  · funext other key
    rw [RowMap.put, rowMap, rowMap]
    by_cases hother : other ∈ r.modelNames
    · rw [if_pos hother, if_pos hother, hwrites.row other hother]
    · rw [if_neg hother, if_neg hother, if_neg]
      rintro ⟨rfl, -⟩
      exact hother hmodel

/-! ### Calls -/

theorem delete_eq (hr : r.Separate) (h : Writable r db model) (id : String) :
    ∃ after, db.delete r model id = .ok ((db.row? model id).isSome, after) := by
  obtain ⟨hmodel, rows, hrows⟩ := h
  simp only [delete, guardModel_ok hmodel, hr.stamp model hmodel, hrows, bind, Except.bind,
    row?_of_rows hrows]
  exact ⟨_, rfl⟩

/-- Calls on the database are calls on its map. -/
theorem simulates_rowMap (hr : r.Separate) :
    Simulates (ShowsAs r) (Database.calls r) (RowMap.calls r decode) where
  save := by
    rintro db _ ⟨htables, rfl⟩ record version
    by_cases hmodel : record.model ∈ r.modelNames
    · obtain ⟨after, hsave⟩ := save_of_writable (htables.writable hmodel) version
      have hwrites := (writes_save hr hsave).2
      simp only [calls, RowMap.calls, RowMap.known, hsave, if_pos hmodel]
      exact ⟨rfl, .writes hr htables hwrites hmodel⟩
    · simp only [calls, RowMap.calls, RowMap.known, Database.save, guardModel_error hmodel,
        if_neg hmodel]
      exact ⟨rfl, htables, rfl⟩
  delete := by
    rintro db _ ⟨htables, rfl⟩ model id
    by_cases hmodel : model ∈ r.modelNames
    · obtain ⟨after, hdelete⟩ := delete_eq hr (htables.writable hmodel) id
      have hwrites := (writes_delete hr hdelete).2
      simp only [calls, RowMap.calls, RowMap.known, hdelete, if_pos hmodel, rowMap_eq hmodel]
      exact ⟨rfl, .writes hr htables hwrites hmodel⟩
    · simp only [calls, RowMap.calls, RowMap.known, Database.delete, guardModel_error hmodel,
        if_neg hmodel]
      exact ⟨rfl, htables, rfl⟩
  get := by
    rintro db _ ⟨htables, rfl⟩ model id
    by_cases hmodel : model ∈ r.modelNames
    · simp only [calls, RowMap.calls, RowMap.known, if_pos hmodel, rowMap_eq hmodel,
        get_of_writable (htables.writable hmodel)]
      cases db.row? model id with
      | none => rfl
      | some row =>
        rw [Option.elim_some, recordOf, RowMap.readRow]
        cases decode row.fields <;> rfl
    · simp only [calls, RowMap.calls, RowMap.known, if_neg hmodel, Database.get,
        guardModel_error hmodel]
      rfl
  versionOf := by
    rintro db _ ⟨htables, rfl⟩ model id
    by_cases hmodel : model ∈ r.modelNames
    · simp only [calls, RowMap.calls, RowMap.known, if_pos hmodel, rowMap_eq hmodel,
        versionOf_of_writable hr (htables.writable hmodel)]
    · simp only [calls, RowMap.calls, RowMap.known, if_neg hmodel, Database.versionOf,
        guardModel_error hmodel]
      rfl
  updateFields := by
    rintro db _ ⟨htables, rfl⟩ model id patch
    by_cases hmodel : model ∈ r.modelNames
    · simp only [calls, RowMap.calls, RowMap.known, if_pos hmodel, rowMap_eq hmodel,
        RowMap.readRow_decode]
      rcases updateFields_of_writable hr (htables.writable hmodel) id patch with
        ⟨⟨row, hrow, hunreadable⟩, hupdate⟩ | ⟨hreadable, after, hupdate, hwrites⟩
      · rw [hupdate, Option.mem_def.1 hrow, Option.all_some, hunreadable]
        exact ⟨rfl, htables, rfl⟩
      · have hall : (db.row? model id).all Row.isReadable = true := by
          cases hrow : db.row? model id with
          | none => rfl
          | some row => exact hreadable row hrow
        have hshows := ShowsAs.writes hr htables hwrites hmodel
        simp only [hupdate, if_pos hall, Work.answered, Option.isSome_map, Option.map_map,
          Function.comp_def, RowMap.overwrite_reread]
        exact ⟨rfl, hshows⟩
    · simp only [calls, RowMap.calls, RowMap.known, Database.updateFields, guardModel_error hmodel,
        if_neg hmodel]
      exact ⟨rfl, htables, rfl⟩

end Database

/-! ## The transactions of a store -/

namespace Work

/-- Save records one by one, without a version, until one is refused. -/
def saveAll : List Record → Work Unit
  | [] => done ()
  | record :: rest => save record 0 fun
    | .ok () => saveAll rest
    | .error e => failed e

theorem run_saveAll (records : List Record) : (saveAll records).run = Store.saveAll records := by
  funext r db
  induction records generalizing db with
  | nil => rfl
  | cons record rest ih =>
    rw [saveAll, run, Store.saveAll]
    cases db.save r record 0 with
    | error e => rfl
    | ok after => exact ih after

/-- Delete records one by one until one is refused. -/
def deleteAll : List Record → Work Unit
  | [] => done ()
  | record :: rest => delete record.model record.id fun
    | .ok _ => deleteAll rest
    | .error e => failed e

theorem run_deleteAll (records : List Record) :
    (deleteAll records).run = Store.deleteAll records := by
  funext r db
  induction records generalizing db with
  | nil => rfl
  | cons record rest ih =>
    rw [deleteAll, run, Store.deleteAll]
    cases db.delete r record.model record.id with
    | error e => rfl
    | ok result => exact ih result.2

/-- Get one record. -/
def getOne (model id : String) : Work (Option Record) :=
  get model id fun
    | .ok record => done record
    | .error e => failed e

theorem run_getOne (model id : String) : (getOne model id).run = Store.getOne model id := by
  funext r db
  rw [getOne, run, Store.getOne]
  cases db.get r model id <;> rfl

end Work

/-! ## Exact values -/

namespace RowMap

variable {m : RowMap} {model id : String}

/-- All values of a map are read as they were written. -/
def IsExact (m : RowMap) : Prop := ∀ model id row, m model id = some row → row.fields.IsExact

theorem IsExact.put (h : m.IsExact) (model id : String) {row : Option Row}
    (hrow : ∀ x ∈ row, x.fields.IsExact) : (m.put model id row).IsExact := by
  intro other key found hfound
  rw [RowMap.put] at hfound
  split at hfound
  · exact hrow found hfound
  · exact h other key found hfound

/-- A map with exact values is read as it is. -/
theorem IsExact.readRow (h : m.IsExact) (model id : String) :
    RowMap.readRow Database.decode (m model id) = RowMap.readRow .ok (m model id) := by
  cases hrow : m model id with
  | none => rfl
  | some row => rw [RowMap.readRow, RowMap.readRow, Database.decode_of_exact (h _ _ _ hrow)]

theorem readRow_ok (row : Option Row) : RowMap.readRow .ok row = .ok row := by
  cases row <;> rfl

theorem isExact_overwrite {row : Row} (hrow : row.fields.IsExact) {patch : List (String × Json)}
    (hpatch : ∀ e ∈ patch, e.2.IsExact) : (overwrite row patch).fields.IsExact := by
  refine Fields.isExact_iff.2 fun name v hv => ?_
  rw [overwrite_eq, Record.get?_setAll, Option.or_eq_some_iff] at hv
  rcases hv with hset | ⟨-, hkept⟩
  · obtain ⟨e, he, rfl⟩ := mem_of_patchValue? hset
    exact hpatch e he
  · exact Fields.isExact_iff.1 hrow name v hkept

/-- Work on a map with exact values leaves such a map, and none that it gives up matters. -/
def LeavesExact {α : Type} (ending : Except StoreError (α × RowMap)) : Prop :=
  ∀ value after, ending = .ok (value, after) → after.IsExact

end RowMap

namespace Work

variable {α : Type}

/-- Whatever the answers are, only exact values are written. -/
def IsExact : Work α → Prop
  | done _ => True
  | failed _ => True
  | save record _ next => record.fields.IsExact ∧ ∀ answer, (next answer).IsExact
  | delete _ _ next => ∀ answer, (next answer).IsExact
  | get _ _ next => ∀ answer, (next answer).IsExact
  | versionOf _ _ next => ∀ answer, (next answer).IsExact
  | updateFields _ _ patch next => (∀ e ∈ patch, e.2.IsExact) ∧ ∀ answer, (next answer).IsExact

theorem isExact_saveAll {records : List Record} (h : ∀ x ∈ records, x.fields.IsExact) :
    (saveAll records).IsExact := by
  induction records with
  | nil => trivial
  | cons record rest ih =>
    obtain ⟨hrecord, hrest⟩ := List.forall_mem_cons.1 h
    refine ⟨hrecord, fun answer => ?_⟩
    cases answer with
    | ok _ => exact ih hrest
    | error _ => trivial

/-- Exact values are read as they are, so reading makes no difference. -/
theorem IsExact.carryOut {r : Registry} {w : Work α} (h : w.IsExact) {m : RowMap}
    (hm : m.IsExact) :
    w.carryOut (RowMap.calls r Database.decode) m = w.carryOut (RowMap.plainCalls r) m
      ∧ RowMap.LeavesExact (w.carryOut (RowMap.plainCalls r) m).2 := by
  induction w generalizing m with
  | done value =>
    refine ⟨rfl, fun _ after hafter => ?_⟩
    cases hafter
    exact hm
  | failed e =>
    refine ⟨rfl, fun _ _ hafter => ?_⟩
    cases hafter
  | save record version next ih =>
    obtain ⟨hrecord, hnext⟩ := h
    have hafter : ((RowMap.plainCalls r).save record version m).2.IsExact := by
      show RowMap.IsExact (if _ then _ else _)
      split
      · exact hm.put _ _ fun x hx => by cases hx; exact hrecord
      · exact hm
    obtain ⟨hsame, hleaves⟩ := ih _ (hnext _) hafter
    exact ⟨congrArg (fun out => (_ :: out.1, out.2)) hsame, hleaves⟩
  | delete model id next ih =>
    have hafter : ((RowMap.plainCalls r).delete model id m).2.IsExact := by
      show RowMap.IsExact (if _ then _ else _)
      split
      · exact hm.put _ _ fun x hx => by cases hx
      · exact hm
    obtain ⟨hsame, hleaves⟩ := ih _ (h _) hafter
    exact ⟨congrArg (fun out => (_ :: out.1, out.2)) hsame, hleaves⟩
  | get model id next ih =>
    have hget : (RowMap.calls r Database.decode).get model id m
        = (RowMap.plainCalls r).get model id m := by
      simp only [RowMap.plainCalls, RowMap.calls, hm.readRow]
    obtain ⟨hsame, hleaves⟩ := ih _ (h _) hm
    simp only [Work.carryOut, hget]
    exact ⟨congrArg (fun out => (_ :: out.1, out.2)) hsame, hleaves⟩
  | versionOf model id next ih =>
    obtain ⟨hsame, hleaves⟩ := ih _ (h _) hm
    exact ⟨congrArg (fun out => (_ :: out.1, out.2)) hsame, hleaves⟩
  | updateFields model id patch next ih =>
    obtain ⟨hpatch, hnext⟩ := h
    have hupdate : (RowMap.calls r Database.decode).updateFields model id patch m
        = (RowMap.plainCalls r).updateFields model id patch m := by
      simp only [RowMap.plainCalls, RowMap.calls, hm.readRow]
    have hafter : ((RowMap.plainCalls r).updateFields model id patch m).2.IsExact := by
      simp only [RowMap.plainCalls, RowMap.calls, RowMap.readRow_ok, RowMap.known]
      split
      · rename_i row hrow
        refine hm.put _ _ fun x hx => ?_
        obtain ⟨before, hbefore, rfl⟩ := Option.map_eq_some_iff.1 hx
        refine RowMap.isExact_overwrite ?_ hpatch
        split at hrow
        · cases hrow
          exact hm _ _ _ hbefore
        · cases hrow
      · exact hm
    obtain ⟨hsame, hleaves⟩ := ih _ (hnext _) hafter
    simp only [Work.carryOut, hupdate]
    exact ⟨congrArg (fun out => (_ :: out.1, out.2)) hsame, hleaves⟩

theorem IsExact.transact {r : Registry} {w : Work α} (h : w.IsExact) {m : RowMap}
    (hm : m.IsExact) :
    (RowMap.calls r Database.decode).transact w m = (RowMap.plainCalls r).transact w m
      ∧ ((RowMap.plainCalls r).transact w m).2.IsExact := by
  obtain ⟨hsame, hleaves⟩ := h.carryOut (r := r) hm
  refine ⟨by rw [Calls.transact, Calls.transact, hsame], ?_⟩
  rw [Calls.transact]
  cases hending : w.carryOut (RowMap.plainCalls r) m with
  | mk answers ending =>
    rw [hending] at hleaves
    cases ending with
    | ok result => exact hleaves result.1 result.2 rfl
    | error e => exact hm

/-- Transactions that write exact values only are those of the plain map. -/
theorem IsExact.inTurn {r : Registry} {ws : List (Work α)} (h : ∀ w ∈ ws, w.IsExact) {m : RowMap}
    (hm : m.IsExact) :
    Replica.inTurn (RowMap.calls r Database.decode).transact ws m
        = Replica.inTurn (RowMap.plainCalls r).transact ws m
      ∧ (Replica.inTurn (RowMap.plainCalls r).transact ws m).2.IsExact := by
  induction ws generalizing m with
  | nil => exact ⟨rfl, hm⟩
  | cons w rest ih =>
    obtain ⟨hw, hrest⟩ := List.forall_mem_cons.1 h
    obtain ⟨hsame, hafter⟩ := hw.transact (r := r) hm
    obtain ⟨hrestSame, hlast⟩ := ih hrest hafter
    exact ⟨by simp only [Replica.inTurn, hsame, hrestSame], hlast⟩

end Work

namespace Store

open Database

variable {r : Registry}

/-- A query of every record lists the rows of its model, unless one of them cannot be read. -/
theorem query_lists {db : Database} {m : RowMap} (h : ShowsAs r db m) {schema : ModelSchema}
    (hschema : schema ∈ r.models) :
    (∃ records, (opened r db).query schema.name .all = .ok records
        ∧ Lists (m schema.name) schema records)
      ∨ (∃ id row, m schema.name id = some row ∧ decode row.fields = .error .serialization)
        ∧ (opened r db).query schema.name .all = .error .serialization := by
  obtain ⟨htables, rfl⟩ := h
  have hmodel : schema.name ∈ r.modelNames := List.mem_map_of_mem hschema
  have hcaps := r.capabilities_of_mem hschema
  obtain ⟨rows, hrows⟩ := htables schema.name hmodel
  have hrow : db.rowMap r schema.name = db.row? schema.name :=
    funext fun id => rowMap_eq hmodel id
  rw [hrow]
  by_cases hreadable : db.AllReadable schema.name
  · exact .inl ⟨_, query_all hcaps hrows hreadable, lists_listed hrows hreadable⟩
  · refine .inr ⟨?_, query_all_of_unreadable hcaps hrows hreadable⟩
    obtain ⟨id, row, hfound, hfailed⟩ : ∃ id row, db.row? schema.name id = some row ∧
        row.isReadable = false := by
      simpa [AllReadable] using hreadable
    exact ⟨id, row, hfound, if_neg (by rw [← Row.isReadable, hfailed]; exact Bool.false_ne_true)⟩

/-- All rows are listed if the text of each is read as it was written. -/
theorem query_lists_of_exact {db : Database} {m : RowMap} (h : ShowsAs r db m) (hm : m.IsExact)
    {schema : ModelSchema} (hschema : schema ∈ r.models) :
    ∃ records, (opened r db).query schema.name .all = .ok records
      ∧ Lists (m schema.name) schema records := by
  rcases query_lists h hschema with hlists | ⟨⟨id, row, hrow, hfailed⟩, -⟩
  · exact hlists
  · rw [decode_of_exact (hm _ _ _ hrow)] at hfailed
    cases hfailed

/-- Opening a store on a database keeps the rows that are there. -/
theorem openOn_showsAs (hr : r.Separate)
    (hfree : ∀ model ∈ r.modelNames, isReserved model = false) (db : Database) :
    ∃ left, openOn r db = (.ok (opened r left), left) ∧ ShowsAs r left (db.rowMap r) := by
  obtain ⟨left, hcreate⟩ := createTables_ok hfree db.createStampTable
  have hopen : openOn r db = (.ok (opened r left), left) := by
    rw [openOn, prepare, hcreate]
  obtain ⟨-, htables⟩ := openOn_tables hopen
  refine ⟨left, hopen, fun model hmodel => ?_, ?_⟩
  · exact (Reached.opened hopen).exists_rows hmodel (hr.stamp model hmodel)
  · funext model id
    rw [rowMap, rowMap]
    by_cases hmodel : model ∈ r.modelNames
    · have hfree := hr.stamp model hmodel
      rw [if_pos hmodel, if_pos hmodel, row?_eq hfree, row?_eq hfree, htables,
        if_pos ⟨model, hmodel, hfree, rfl⟩]
      cases db.tables.get? (tableName model) <;> rfl
    · rw [if_neg hmodel, if_neg hmodel]

/-- Stickers that are sorted, and fonts. -/
def sortedStickers : Registry where
  version := "v1"
  models := [(ModelSchema.named "Sticker").declare "sort" .int, .named "Font"]
  words := by decide +kernel
  distinct := by decide +kernel

/-- Three stickers are saved; then one is deleted, but the work is given up over a ghost. -/
def savedThenGivenUp : List (Work Unit) :=
  [.saveAll [⟨"Sticker", "s1", Dict.ofEntries [("sort", .int 2)]⟩, ⟨"Sticker", "s2", Dict.empty⟩,
      ⟨"Sticker", "s3", Dict.ofEntries [("sort", .int 1)]⟩],
    .delete "Sticker" "s1" fun _ => .saveAll [⟨"Ghost", "g1", Dict.empty⟩]]

/-- The rows that the stickers then have. -/
def savedRows : Dict Row :=
  Dict.ofEntries [("s1", ⟨Dict.ofEntries [("sort", .int 2)], 0⟩), ("s2", ⟨Dict.empty, 0⟩),
    ("s3", ⟨Dict.ofEntries [("sort", .int 1)], 0⟩)]

theorem inOrder_savedRows : (inOrder true savedRows).map Prod.fst = ["s3", "s1", "s2"] := by
  have hentries : savedRows.entries = [("s1", ⟨Dict.ofEntries [("sort", .int 2)], 0⟩),
      ("s2", ⟨Dict.empty, 0⟩), ("s3", ⟨Dict.ofEntries [("sort", .int 1)], 0⟩)] := rfl
  have hmissing : sortLe (.ofField (Dict.ofEntries [("sort", .int 2)]) FieldName.sort)
      (.ofField Dict.empty FieldName.sort) = true := rfl
  have hgreater : sortLe (.ofField (Dict.ofEntries [("sort", .int 2)]) FieldName.sort)
      (.ofField (Dict.ofEntries [("sort", .int 1)]) FieldName.sort) = false := rfl
  rw [inOrder, if_pos rfl, hentries]
  simp [List.mergeSort, List.MergeSort.Internal.splitInTwo, hmissing, hgreater]

theorem savedThenGivenUp_exact : ∀ w ∈ savedThenGivenUp, w.IsExact := by
  refine List.forall_mem_cons.2 ⟨Work.isExact_saveAll (by decide +kernel), ?_⟩
  refine List.forall_mem_singleton.2 fun _ => Work.isExact_saveAll (by decide +kernel)

/-- A model of a reserved name in capitals. -/
def capitalReserved : Registry where
  version := "v1"
  models := [.named "SQLITE_STICKER"]
  words := by decide +kernel
  distinct := by decide +kernel

/-- Saving a record with the name of the stamp's table in capitals. -/
def capitalSaved : Work Unit := .saveAll [⟨"MODEL_VERSION", "s1", Dict.empty⟩]

end Store

end Replica
