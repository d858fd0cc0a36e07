/-
Replica.Proofs.Store.RowView — a database row by row.

`row?` is the row of a model under an identifier. When no two models share a table, a
statement that is carried out changes one row at most (`Writes`): `writes_save`,
`writes_delete`, `writes_updateFields`. An update of single fields writes the row again as its
text is read (`Row.patched`); done twice, it may change numbers twice (`Row.patched_patched`),
unless its values are read as they were (`Fields.IsExact`). `Keeps` is what no statement
changes: the version stamp, which tables there are, and the tables of no registered model.
Databases that agree on this and on every row are equal (`Keeps.eq_of_rows`).

Whether a statement is carried out depends only on its model being registered and having a
table (`Writable`), and for an update on the row being readable, so it is the same before and
after statements on other rows (`Keeps.writable`). A query answers with what the text of rows is
read as (`Shows`), and depends on the rows of its model alone (`row_of_query`, `query_congr`).
-/
import Replica.Proofs.Store.Rows

namespace Replica

/-! ## Setting fields -/

/-- What a list sets a field to; the last value counts, and `id` is no field. -/
def patchValue? (name : String) : List (String × Json) → Option Json
  | [] => none
  | e :: rest =>
    (patchValue? name rest).or (if e.1 = name ∧ name ≠ FieldName.id then some e.2 else none)

theorem patchValue?_eq_none {name : String} {patch : List (String × Json)}
    (h : ∀ e ∈ patch, e.1 ≠ name) : patchValue? name patch = none := by
  induction patch with
  | nil => rfl
  | cons e rest ih =>
    rw [patchValue?, ih fun x hx => h x (List.mem_cons_of_mem _ hx),
      if_neg fun hsame => h e (List.mem_cons_self ..) hsame.1]
    rfl

theorem mem_of_patchValue? {name : String} {patch : List (String × Json)} {v : Json}
    (h : patchValue? name patch = some v) : ∃ e ∈ patch, e.2 = v := by
  induction patch with
  | nil => cases h
  | cons e rest ih =>
    rcases Option.or_eq_some_iff.1 h with hrest | ⟨-, hfirst⟩
    · obtain ⟨found, hfound, rfl⟩ := ih hrest
      exact ⟨found, List.mem_cons_of_mem _ hfound, rfl⟩
    · obtain ⟨-, hv⟩ := Option.ite_none_right_eq_some.1 hfirst
      exact ⟨e, List.mem_cons_self .., Option.some.inj hv⟩

theorem Record.get?_set (x : Record) (field : String) (value : Json) (name : String) :
    (x.set field value).fields.get? name
      = if field = name ∧ name ≠ FieldName.id then some value else x.fields.get? name := by
  unfold Record.set
  by_cases hid : field = FieldName.id
  · simp +contextual [hid, eq_comm]
  · by_cases hname : field = name
    · simp [hid, ← hname]
    · simp [hid, hname]

theorem Record.get?_setAll (x : Record) (patch : List (String × Json)) (name : String) :
    (x.setAll patch).fields.get? name = (patchValue? name patch).or (x.fields.get? name) := by
  induction patch generalizing x with
  | nil => rfl
  | cons e rest ih =>
    have hcons : x.setAll (e :: rest) = (x.set e.1 e.2).setAll rest := rfl
    rw [hcons, ih, Record.get?_set, patchValue?, Option.or_assoc]
    by_cases h : e.1 = name ∧ name ≠ FieldName.id <;> simp [h]

/-! ## Exact values -/

/-- The text of a field is read as the value it was written for. -/
def Json.IsExact (v : Json) : Prop :=
  v.isReadable (Json.Parser.maxDepth - 1) = true ∧ v.reread = v

instance (v : Json) : Decidable v.IsExact := inferInstanceAs (Decidable (_ ∧ _))

/-- The text of a row with these fields is read as them. -/
def Fields.IsExact (fields : Fields) : Prop := ∀ e ∈ fields.entries, e.2.IsExact

instance (fields : Fields) : Decidable fields.IsExact :=
  inferInstanceAs (Decidable (∀ e ∈ fields.entries, _))

theorem Fields.isExact_iff {fields : Fields} :
    fields.IsExact ↔ ∀ name v, fields.get? name = some v → v.IsExact :=
  ⟨fun h name v hv => h (name, v) (Dict.mem_entries.2 hv),
    fun h e he => h e.1 e.2 (Dict.mem_entries.1 he)⟩

theorem Database.decode_of_exact {fields : Fields} (h : fields.IsExact) :
    decode fields = .ok fields := by
  have hreadable : fields.isReadable = true := List.all_eq_true.2 fun e he => (h e he).1
  have hsame : fields.reread = fields := by
    refine Dict.ext_get? fun name => ?_
    rw [Fields.get?_reread]
    cases hv : fields.get? name with
    | none => rfl
    | some v => rw [Option.map_some, (Fields.isExact_iff.1 h name v hv).2]
  rw [decode, if_pos hreadable, hsame]

namespace Row

/-- Whether the text of a row can be read. -/
def isReadable (row : Row) : Bool := row.fields.isReadable

/-- The row as its text is read. -/
def reread (row : Row) : Row := { row with fields := row.fields.reread }

/-- The row written again as its text is read, with the fields of a list set, in order. -/
def rewritten (row : Row) (patch : List (String × Json)) : Row :=
  { row with fields := (Record.setAll ⟨"", "", row.fields.reread⟩ patch).fields }

/-- What an update of single fields makes of a row: nothing if there is no field to set, or if
the row cannot be read. -/
def patched (row : Row) (patch : List (String × Json)) : Row :=
  if patch ≠ [] ∧ row.isReadable = true then row.rewritten patch else row

@[simp] theorem version_rewritten (row : Row) (patch : List (String × Json)) :
    (row.rewritten patch).version = row.version := rfl

@[simp] theorem get?_rewritten (row : Row) (patch : List (String × Json)) (name : String) :
    (row.rewritten patch).fields.get? name
      = (patchValue? name patch).or ((row.fields.get? name).map Json.reread) := by
  rw [rewritten, Record.get?_setAll, Fields.get?_reread]

@[simp] theorem patched_nil (row : Row) : row.patched [] = row :=
  if_neg fun h => h.1 rfl

theorem patched_of_readable {row : Row} {patch : List (String × Json)} (hpatch : patch ≠ [])
    (hrow : row.isReadable = true) : row.patched patch = row.rewritten patch :=
  if_pos ⟨hpatch, hrow⟩

theorem patched_of_unreadable {row : Row} (patch : List (String × Json))
    (hrow : row.isReadable = false) : row.patched patch = row :=
  if_neg fun h => Bool.false_ne_true (hrow.symm.trans h.2)

@[simp] theorem version_patched (row : Row) (patch : List (String × Json)) :
    (row.patched patch).version = row.version := by
  rw [patched]
  split <;> rfl

theorem eq_of_fields {a b : Row} (hversion : a.version = b.version)
    (hfields : ∀ name, a.fields.get? name = b.fields.get? name) : a = b := by
  obtain ⟨fields, version⟩ := a
  obtain ⟨fields', version'⟩ := b
  simp only at hversion hfields
  rw [hversion, Dict.ext_get? hfields]

/-- Setting the same fields again writes the row as its text is read, or not at all. Values that
are read as they were are set as they were. -/
theorem patched_patched {row : Row} {patch : List (String × Json)}
    (hpatch : ∀ e ∈ patch, e.2.reread = e.2) :
    (row.patched patch).patched patch = row.patched patch
      ∨ (row.patched patch).patched patch = (row.patched patch).reread := by
  by_cases hempty : patch = []
  · exact .inl (by rw [hempty, patched_nil])
  cases hrow : row.isReadable with
  | false => exact .inl (by rw [patched_of_unreadable patch hrow, patched_of_unreadable patch hrow])
  | true =>
    rw [patched_of_readable hempty hrow]
    cases hagain : (row.rewritten patch).isReadable with
    | false => exact .inl (patched_of_unreadable patch hagain)
    | true =>
      refine .inr ((patched_of_readable hempty hagain).trans (eq_of_fields rfl fun name => ?_))
      rw [get?_rewritten, reread, Fields.get?_reread, get?_rewritten]
      cases hvalue : patchValue? name patch with
      | none => rfl
      | some v =>
        obtain ⟨e, he, rfl⟩ := mem_of_patchValue? hvalue
        rw [Option.some_or, Option.some_or, Option.map_some, hpatch e he]

end Row

/-- The fields that are set do not depend on whose they are. -/
theorem Record.fields_setAll (model id : String) (row : Row) (patch : List (String × Json)) :
    (Record.setAll ⟨model, id, row.fields.reread⟩ patch).fields = (row.rewritten patch).fields :=
  Dict.ext_get? fun name => by
    rw [Record.get?_setAll, Row.get?_rewritten, Fields.get?_reread]

namespace Database

variable {r : Registry} {db db' db'' : Database} {model id : String}

/-! ## The row under an identifier -/

/-- The row of a model under an identifier. -/
def row? (db : Database) (model id : String) : Option Row :=
  match db.rows model with
  | .ok rows => rows.get? id
  | .error _ => none

theorem row?_of_rows {rows : Dict Row} (h : db.rows model = .ok rows) (id : String) :
    db.row? model id = rows.get? id := by
  rw [row?, h]

/-- A registered model that has a table. -/
def Writable (r : Registry) (db : Database) (model : String) : Prop :=
  model ∈ r.modelNames ∧ ∃ rows, db.rows model = .ok rows

/-! ## What no statement changes -/

/-- The stamp, which tables there are, and the tables of no registered model are as they
were. -/
structure Keeps (r : Registry) (before after : Database) : Prop where
  stamp : after.stamp = before.stamp
  present : ∀ name, (after.tables.get? name).isSome = (before.tables.get? name).isSome
  others : ∀ name, name ∉ r.modelNames.map tableName →
    after.tables.get? name = before.tables.get? name

theorem Keeps.refl (r : Registry) (db : Database) : Keeps r db db :=
  ⟨rfl, fun _ => rfl, fun _ _ => rfl⟩

theorem Keeps.trans (h : Keeps r db db') (h' : Keeps r db' db'') : Keeps r db db'' where
  stamp := h'.stamp.trans h.stamp
  present name := (h'.present name).trans (h.present name)
  others name hname := (h'.others name hname).trans (h.others name hname)

/-- A model that does not share the table of the stamp has the rows of its own table. -/
theorem rows_eq (hfree : sharesStamp model = false) :
    db.rows model = (db.tables.get? (tableName model)).elim (.error .database) .ok := by
  rw [Database.rows, hfree]
  cases db.tables.get? (tableName model) <;> rfl

theorem row?_eq (hfree : sharesStamp model = false) (id : String) :
    db.row? model id = (db.tables.get? (tableName model)).bind (·.get? id) := by
  rw [row?, rows_eq hfree]
  cases db.tables.get? (tableName model) <;> rfl

theorem exists_rows_iff (hfree : sharesStamp model = false) :
    (∃ rows, db.rows model = .ok rows) ↔ (db.tables.get? (tableName model)).isSome = true := by
  rw [rows_eq hfree]
  cases db.tables.get? (tableName model) <;> simp

theorem Keeps.writable (hr : r.Separate) (h : Keeps r db db') :
    Writable r db' model ↔ Writable r db model := by
  refine and_congr_right fun hmodel => ?_
  have hfree := hr.stamp model hmodel
  rw [exists_rows_iff hfree, exists_rows_iff hfree, h.present]

/-- Models with the same row under every identifier have the same table. -/
theorem Keeps.table_eq (hr : r.Separate) (h : Keeps r db db') (hmodel : model ∈ r.modelNames)
    (hrow : ∀ id, db'.row? model id = db.row? model id) :
    db'.tables.get? (tableName model) = db.tables.get? (tableName model) := by
  have hpresent := h.present (tableName model)
  simp only [row?_eq (hr.stamp model hmodel)] at hrow
  cases hbefore : db.tables.get? (tableName model) with
  | none =>
    rw [hbefore] at hpresent
    simpa using hpresent
  | some rows =>
    rw [hbefore] at hpresent hrow
    obtain ⟨rows', hafter⟩ := Option.isSome_iff_exists.1 (hpresent.trans rfl)
    rw [hafter] at hrow ⊢
    exact congrArg some (Dict.ext_get? hrow)

theorem Keeps.rows_eq (hr : r.Separate) (h : Keeps r db db') (hmodel : model ∈ r.modelNames)
    (hrow : ∀ id, db'.row? model id = db.row? model id) : db'.rows model = db.rows model := by
  have hfree := hr.stamp model hmodel
  rw [Database.rows_eq hfree, Database.rows_eq hfree, h.table_eq hr hmodel hrow]

/-- Databases that differ in no row are equal. -/
theorem Keeps.eq_of_rows (hr : r.Separate) (h : Keeps r db db')
    (hrow : ∀ model ∈ r.modelNames, ∀ id, db'.row? model id = db.row? model id) : db' = db := by
  have htables : db'.tables = db.tables := by
    refine Dict.ext_get? fun name => ?_
    by_cases hname : name ∈ r.modelNames.map tableName
    · obtain ⟨model, hmodel, rfl⟩ := List.mem_map.1 hname
      exact h.table_eq hr hmodel (hrow model hmodel)
    · exact h.others name hname
  obtain ⟨stamp, tables⟩ := db
  obtain ⟨stamp', tables'⟩ := db'
  have hstamp : stamp' = stamp := h.stamp
  simp only at htables
  rw [hstamp, htables]

/-! ## Single writes -/

/-- At most one row is another one, and the rest is kept. -/
structure Writes (r : Registry) (db db' : Database) (model id : String) (row : Option Row) :
    Prop where
  row : ∀ other ∈ r.modelNames, ∀ key,
    db'.row? other key = if model = other ∧ id = key then row else db.row? other key
  keeps : Keeps r db db'

/-- Nothing is written. -/
theorem Writes.nothing (r : Registry) (db : Database) (model id : String) :
    Writes r db db model id (db.row? model id) := by
  refine ⟨fun other _ key => ?_, .refl r db⟩
  by_cases h : model = other ∧ id = key
  · rw [if_pos h, h.1, h.2]
  · rw [if_neg h]

/-- Rows that differ from a model's own under one identifier are put in their place. -/
theorem writes_setRows (hr : r.Separate) (hmodel : model ∈ r.modelNames) {rows rows' : Dict Row}
    (hrows : db.rows model = .ok rows) {row : Option Row}
    (hget : ∀ key, rows'.get? key = if id = key then row else rows.get? key) :
    Writes r db (db.setRows model rows') model id row := by
  have hfree := hr.stamp model hmodel
  have htable : (db.tables.get? (tableName model)).isSome = true :=
    (exists_rows_iff hfree).1 ⟨rows, hrows⟩
  constructor
  · intro other hother key
    have hsame : (db.setRows model rows').rows other = _ := rows_setRows hr hmodel hother rows'
    by_cases hm : model = other
    · rw [if_pos hm] at hsame
      rw [row?_of_rows hsame, hget]
      by_cases hk : id = key
      · simp [hm, hk]
      · rw [if_neg hk, if_neg fun h => hk h.2, ← hm, row?_of_rows hrows]
    · rw [if_neg hm] at hsame
      rw [if_neg fun h => hm h.1, row?, row?, hsame]
  · refine ⟨rfl, fun name => ?_, fun name hname => ?_⟩
    · rw [setRows, Dict.get?_insert]
      by_cases hname : tableName model = name
      · rw [if_pos hname, ← hname, htable]
        rfl
      · rw [if_neg hname]
    · have hne : tableName model ≠ name := by
        rintro rfl
        exact hname (List.mem_map_of_mem hmodel)
      rw [setRows, Dict.get?_insert, if_neg hne]

/-! ## Statements -/

theorem guardModel_ok (h : model ∈ r.modelNames) : guardModel r model = .ok () := by
  rw [guardModel, if_pos (Registry.contains_iff.2 h)]

theorem guardModel_error (h : model ∉ r.modelNames) :
    guardModel r model = .error (.unknownModel model) := by
  rw [guardModel, if_neg fun hcontains => h (Registry.contains_iff.1 hcontains)]

theorem writes_save (hr : r.Separate) {record : Record} {version : Int}
    (h : db.save r record version = .ok db') :
    Writable r db record.model
      ∧ Writes r db db' record.model record.id (some ⟨record.fields, version⟩) := by
  simp only [save, bind, Except.bind] at h
  split at h
  · simp at h
  · rename_i hguard
    split at h
    · simp at h
    · rename_i rows hrows
      cases h
      have hmodel := mem_of_guardModel hguard
      exact ⟨⟨hmodel, rows, hrows⟩, writes_setRows hr hmodel hrows fun key => by simp⟩

theorem save_of_writable {record : Record} (h : Writable r db record.model) (version : Int) :
    ∃ db', db.save r record version = .ok db' := by
  obtain ⟨hmodel, rows, hrows⟩ := h
  simp only [save, guardModel_ok hmodel, hrows, bind, Except.bind]
  exact ⟨_, rfl⟩

theorem writes_delete (hr : r.Separate) {answer : Bool}
    (h : db.delete r model id = .ok (answer, db')) :
    Writable r db model ∧ Writes r db db' model id none := by
  simp only [delete, bind, Except.bind] at h
  split at h
  · simp at h
  · rename_i hguard
    have hmodel := mem_of_guardModel hguard
    rw [if_neg (by rw [hr.stamp model hmodel]; simp)] at h
    split at h
    · simp at h
    · rename_i rows hrows
      cases h
      exact ⟨⟨hmodel, rows, hrows⟩, writes_setRows hr hmodel hrows fun key => by simp⟩

theorem delete_of_writable (hr : r.Separate) (h : Writable r db model) (id : String) :
    ∃ answer db', db.delete r model id = .ok (answer, db') := by
  obtain ⟨hmodel, rows, hrows⟩ := h
  simp only [delete, guardModel_ok hmodel, hr.stamp model hmodel, hrows, bind, Except.bind]
  exact ⟨_, _, rfl⟩

theorem versionOf_eq (hr : r.Separate) {stored : Option Int}
    (h : db.versionOf r model id = .ok stored) :
    Writable r db model ∧ stored = (db.row? model id).map Row.version := by
  simp only [versionOf, bind, Except.bind] at h
  split at h
  · simp at h
  · rename_i hguard
    have hmodel := mem_of_guardModel hguard
    rw [if_neg (by rw [hr.stamp model hmodel]; simp)] at h
    split at h
    · simp at h
    · rename_i rows hrows
      cases h
      exact ⟨⟨hmodel, rows, hrows⟩, by rw [row?_of_rows hrows]⟩

theorem versionOf_of_writable (hr : r.Separate) (h : Writable r db model) (id : String) :
    db.versionOf r model id = .ok ((db.row? model id).map Row.version) := by
  obtain ⟨hmodel, rows, hrows⟩ := h
  simp only [versionOf, guardModel_ok hmodel, hr.stamp model hmodel, hrows, bind, Except.bind,
    row?_of_rows hrows]
  rfl

/-- Records are answered as the text of their row is read. -/
theorem recordOf_eq (model id : String) (row : Row) : recordOf model id row
    = if row.isReadable then .ok ⟨model, id, row.fields.reread⟩ else .error .serialization := by
  rw [recordOf, decode, Row.isReadable]
  split <;> rfl

theorem get_of_writable (h : Writable r db model) (id : String) :
    db.get r model id
      = (db.row? model id).elim (.ok none) fun row => (recordOf model id row).map some := by
  obtain ⟨hmodel, rows, hrows⟩ := h
  simp only [get, guardModel_ok hmodel, hrows, bind, Except.bind, row?_of_rows hrows]
  cases rows.get? id with
  | none => rfl
  | some row => cases hrecord : recordOf model id row <;> simp [hrecord] <;> rfl

/-- An update of single fields answers whether there is a row, and writes it again; a row that
cannot be read is left alone, and the update fails. -/
theorem updateFields_of_writable (hr : r.Separate) (h : Writable r db model) (id : String)
    (patch : List (String × Json)) :
    ((∃ row ∈ db.row? model id, row.isReadable = false)
        ∧ db.updateFields r model id patch = .error .serialization)
      ∨ (∀ row ∈ db.row? model id, row.isReadable = true)
        ∧ ∃ after, db.updateFields r model id patch = .ok ((db.row? model id).isSome, after)
          ∧ Writes r db after model id ((db.row? model id).map (·.rewritten patch)) := by
  obtain ⟨hmodel, rows, hrows⟩ := h
  have hrow := row?_of_rows hrows id
  simp only [updateFields, guardModel_ok hmodel, hrows, bind, Except.bind, hrow]
  cases hget : rows.get? id with
  | none =>
    have hsame := Writes.nothing r db model id
    rw [hrow, hget] at hsame
    exact .inr ⟨by simp, db, rfl, hsame⟩
  | some row =>
    cases hreadable : row.isReadable with
    | false =>
      refine .inl ⟨⟨row, rfl, hreadable⟩, ?_⟩
      simp [recordOf_eq, hreadable]
    | true =>
      refine .inr ⟨by simpa using hreadable, ?_⟩
      simp only [recordOf_eq, hreadable, if_true]
      refine ⟨_, rfl, writes_setRows hr hmodel hrows fun key => ?_⟩
      rw [Dict.get?_insert, Record.fields_setAll]
      rfl

/-- Whether there is a row that can be read and written again. -/
def canPatch (db : Database) (model id : String) : Bool := (db.row? model id).any Row.isReadable

theorem row?_of_not_writable (hmodel : model ∈ r.modelNames) (h : ¬ Writable r db model) :
    db.row? model id = none := by
  rw [row?]
  split
  · rename_i rows hrows
    exact absurd ⟨hmodel, rows, hrows⟩ h
  · rfl

theorem updateFields_of_not_writable (h : ¬ Writable r db model) (id : String)
    (patch : List (String × Json)) : ∃ e, db.updateFields r model id patch = .error e := by
  by_cases hmodel : model ∈ r.modelNames
  · cases hrows : db.rows model with
    | ok rows => exact absurd ⟨hmodel, rows, hrows⟩ h
    | error e => exact ⟨e, by simp [updateFields, guardModel_ok hmodel, hrows, bind, Except.bind]⟩
  · exact ⟨_, by simp [updateFields, guardModel_error hmodel, bind, Except.bind]; rfl⟩

/-- An update that has something to set and is carried out. -/
theorem writes_updateFields (hr : r.Separate) {patch : List (String × Json)} (hpatch : patch ≠ [])
    {answer : Bool} (h : db.updateFields r model id patch = .ok (answer, db')) :
    answer = db.canPatch model id
      ∧ Writes r db db' model id ((db.row? model id).map (·.patched patch)) := by
  by_cases hwritable : Writable r db model
  · rcases updateFields_of_writable hr hwritable id patch with ⟨-, herror⟩ |
      ⟨hreadable, after, hok, hwrites⟩
    · cases h.symm.trans herror
    · cases h.symm.trans hok
      cases hrow : db.row? model id with
      | none =>
        rw [hrow] at hwrites
        exact ⟨by rw [canPatch, hrow]; rfl, hwrites⟩
      | some row =>
        have hreadable := hreadable row hrow
        rw [hrow] at hwrites
        refine ⟨by rw [canPatch, hrow]; exact hreadable.symm, ?_⟩
        rw [Option.map_some, Row.patched_of_readable hpatch hreadable]
        exact hwrites
  · obtain ⟨e, herror⟩ := updateFields_of_not_writable hwritable id patch
    cases h.symm.trans herror

/-- An update that fails had nothing to write again. -/
theorem writes_of_updateFields_error (hr : r.Separate) {patch : List (String × Json)}
    {e : StoreError} (h : db.updateFields r model id patch = .error e) :
    (model ∈ r.modelNames → db.canPatch model id = false)
      ∧ Writes r db db model id ((db.row? model id).map (·.patched patch)) := by
  by_cases hwritable : Writable r db model
  · rcases updateFields_of_writable hr hwritable id patch with ⟨⟨row, hrow, hreadable⟩, -⟩ |
      ⟨-, after, hok, -⟩
    · have hsame := Writes.nothing r db model id
      have hrow : db.row? model id = some row := hrow
      rw [hrow] at hsame ⊢
      rw [Option.map_some, Row.patched_of_unreadable patch hreadable]
      exact ⟨fun _ => by rw [canPatch, hrow]; exact hreadable, hsame⟩
    · cases h.symm.trans hok
  · refine ⟨fun hmodel => by rw [canPatch, row?_of_not_writable hmodel hwritable]; rfl,
      fun other hother key => ?_, .refl r db⟩
    split
    · rename_i hsame
      obtain ⟨rfl, rfl⟩ := hsame
      rw [row?_of_not_writable hother hwritable]
      rfl
    · rfl

/-! ## Queries -/

/-- Queries depend on the rows of their model alone. -/
theorem query_congr (h : model ∈ r.modelNames → db'.rows model = db.rows model) (p : Predicate) :
    db'.query r model p = db.query r model p := by
  rw [query, query]
  by_cases hmem : model ∈ r.modelNames
  · rw [h hmem]
  · rw [Registry.capabilities_unregistered hmem]
    rfl

theorem mem_inOrder {bySort : Bool} {rows : Dict Row} {e : String × Row} :
    e ∈ inOrder bySort rows ↔ rows.get? e.1 = some e.2 := by
  unfold inOrder
  split
  · rw [List.mem_mergeSort, Dict.mem_entries]
  · exact Dict.mem_entries

/-- A record shows a row: it has the fields that the text of the row is read as. -/
def Shows (db : Database) (x : Record) : Prop :=
  ∃ row, db.row? x.model x.id = some row ∧ decode row.fields = .ok x.fields

/-- Listed rows are answered if all of them can be read. -/
theorem recordsOf_eq (model : String) (entries : List (String × Row)) :
    recordsOf model entries = if entries.all (·.2.isReadable)
      then .ok (entries.map fun e => ⟨model, e.1, e.2.fields.reread⟩)
      else .error .serialization := by
  induction entries with
  | nil => rfl
  | cons e rest ih =>
    obtain ⟨id, row⟩ := e
    simp only [recordsOf, recordOf_eq, ih, bind, Except.bind, List.all_cons]
    by_cases hrow : row.isReadable = true <;> by_cases hrest : rest.all (·.2.isReadable) = true <;>
      simp [hrow, hrest, pure, Except.pure]

/-- Queries answer with rows. -/
theorem row_of_query {p : Predicate} {answer : List Record} {x : Record}
    (h : db.query r model p = .ok answer) (hx : x ∈ answer) : x.model = model ∧ db.Shows x := by
  simp only [query, bind, Except.bind] at h
  split at h
  · simp at h
  · split at h
    · simp at h
    · split at h
      · simp at h
      · split at h
        · simp at h
        · rename_i rows hrows
          rw [recordsOf_eq] at h
          split at h
          · rename_i hall
            cases h
            obtain ⟨e, he, rfl⟩ := List.mem_map.1 hx
            refine ⟨rfl, e.2, ?_, if_pos (List.all_eq_true.1 hall e he)⟩
            rw [row?_of_rows hrows, mem_inOrder.1 (List.mem_filter.1 he).1]
          · cases h

end Database

end Replica
