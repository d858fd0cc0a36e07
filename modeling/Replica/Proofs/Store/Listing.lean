/-
Replica.Proofs.Store.Listing — the query of every record lists the table of a model.

The query lists each row once (`query_all`, `mem_listed`, `nodup_ids`), as its text is read,
unless one of them cannot be read (`query_all_of_unreadable`). The rows of a table are kept by
identifier, in the order of its bytes, and so they are listed where the model declares no sort
field (`listed_byId`). Where it declares one, they are sorted by it, and sorting keeps rows of
one sort value in the order they had (`pairwise_mergeSort_stable`). The order of cells is total
on integers and missing values at least, and on these it is the order by sort value with missing
ones last (`sortLe_eq`); so rows that sort by whole numbers are listed by sort value, then by
identifier (`listed_bySort`). All of this is what `Lists` says of a list (`lists_listed`).
-/
import Replica.Proofs.Store.QueryAgreement
import Replica.Proofs.Text.ByteOrder

namespace Replica

/-! ## Sorting -/

/-- Sorting a list puts it in order, and keeps the order of what is in the same place. -/
theorem pairwise_mergeSort_stable {α : Type} (le : α → α → Bool) {before : α → α → Prop}
    (trans : ∀ a b c, le a b = true → le b c = true → le a c = true)
    (total : ∀ a b, (le a b || le b a) = true) {l : List α} (h : l.Pairwise before) :
    (l.mergeSort le).Pairwise fun a b => le a b = true ∧ (le b a = true → before a b) := by
  have hsorted := List.pairwise_mergeSort (List.zipIdxLE_trans trans) (List.zipIdxLE_total total)
    l.zipIdx
  have hnodup : (l.zipIdx.mergeSort (List.zipIdxLE le)).Nodup := by
    rw [(List.mergeSort_perm ..).nodup_iff]
    exact .of_map Prod.snd (by simp [List.nodup_range'])
  rw [← List.mergeSort_zipIdx, List.pairwise_map]
  refine (hsorted.and hnodup).imp_of_mem fun {x y} hx hy hxy => ?_
  obtain ⟨a, i⟩ := x
  obtain ⟨b, j⟩ := y
  obtain ⟨hle, hne⟩ := hxy
  obtain ⟨hi, rfl⟩ := List.getElem?_eq_some_iff.1
    (List.mk_mem_zipIdx_iff_getElem?.1 (List.mem_mergeSort.1 hx))
  obtain ⟨hj, rfl⟩ := List.getElem?_eq_some_iff.1
    (List.mk_mem_zipIdx_iff_getElem?.1 (List.mem_mergeSort.1 hy))
  simp only [List.zipIdxLE] at hle
  split at hle
  · refine ⟨‹_›, fun hback => ?_⟩
    rw [if_pos hback, decide_eq_true_eq] at hle
    have hlt : i < j := by
      refine Nat.lt_of_le_of_ne hle ?_
      rintro rfl
      exact hne rfl
    exact List.pairwise_iff_getElem.1 h i j hi hj hlt
  · cases hle

/-! ## Sort values -/

/-- The sort values that are listed by number are integers of 64 bits, or none at all. -/
def SortsByNumber (fields : Fields) : Prop :=
  ∀ v, fields.get? FieldName.sort = some v → v = .null ∨ v.asSigned64?.isSome = true

/-- The integer that a row is sorted by. -/
def sortValue? (fields : Fields) : Option Int :=
  (fields.get? FieldName.sort).bind Json.asSigned64?

/-- Integers in their order, and none last. -/
def sortValueLe : Option Int → Option Int → Bool
  | some m, some n => m ≤ n
  | none, some _ => false
  | _, none => true

theorem sortValueLe_trans (a b c : Option Int) (hab : sortValueLe a b = true)
    (hbc : sortValueLe b c = true) : sortValueLe a c = true := by
  cases a <;> cases b <;> cases c <;> simp_all [sortValueLe]
  omega

theorem sortValueLe_total (a b : Option Int) : (sortValueLe a b || sortValueLe b a) = true := by
  cases a <;> cases b <;> simp [sortValueLe]
  omega

/-- A sort value is read as it was. -/
theorem sortValue?_reread {fields : Fields} (h : SortsByNumber fields) :
    sortValue? fields.reread = sortValue? fields := by
  rw [sortValue?, sortValue?, Fields.get?_reread]
  cases hv : fields.get? FieldName.sort with
  | none => rfl
  | some v =>
    rcases h v hv with rfl | hsome
    · rfl
    · cases v with
      | int n => rfl
      | _ => cases hsome

/-- The cell of a sort value. -/
theorem ofField_sort {fields : Fields} (h : SortsByNumber fields) :
    Cell.ofField fields FieldName.sort = (sortValue? fields).elim .missing .integer := by
  rw [Cell.ofField, sortValue?]
  cases hv : fields.get? FieldName.sort with
  | none => rfl
  | some v =>
    rcases h v hv with rfl | hsome
    · rfl
    · cases v with
      | int n =>
        obtain ⟨m, hm⟩ := Option.isSome_iff_exists.1 hsome
        simp [Cell.ofJson, hm]
      | _ => cases hsome

/-- Cells of sort values are in the order of the values. -/
theorem sortLe_eq {fields fields' : Fields} (h : SortsByNumber fields)
    (h' : SortsByNumber fields') :
    Database.sortLe (.ofField fields FieldName.sort) (.ofField fields' FieldName.sort)
      = sortValueLe (sortValue? fields) (sortValue? fields') := by
  rw [ofField_sort h, ofField_sort h']
  cases sortValue? fields with
  | none => cases sortValue? fields' <;> rfl
  | some m =>
    cases sortValue? fields' with
    | none => rfl
    | some n => simp [Database.sortLe, Cell.isMissing, Cell.order, sortValueLe, Int.compare_eq_gt]

/-! ## Lists of rows -/

namespace Database

variable {r : Registry} {db : Database} {model : String} {rows : Dict Row}

/-- The rows of a table as records, as they are listed and read. -/
def listed (model : String) (bySort : Bool) (rows : Dict Row) : List Record :=
  shown model (inOrder bySort rows)

theorem selected_always (entries : List (String × Row)) : selected entries .always = entries :=
  List.filter_eq_self.2 fun _ _ => rfl

/-- The query of every record reads all rows. -/
theorem query_all_eq {caps : Capabilities} (hcaps : r.capabilities model = .ok caps)
    (hrows : db.rows model = .ok rows) :
    db.query r model .all = recordsOf model (inOrder caps.sort rows) := by
  have hquery := query_eq hcaps hrows (show Condition.ofPredicate .all = .ok .always from rfl)
  rwa [if_pos Condition.fits_always, selected_always] at hquery

theorem query_all {caps : Capabilities} (hcaps : r.capabilities model = .ok caps)
    (hrows : db.rows model = .ok rows) (hreadable : db.AllReadable model) :
    db.query r model .all = .ok (listed model caps.sort rows) := by
  rw [query_all_eq hcaps hrows, listed]
  refine recordsOf_of_readable fun e he => hreadable e.1 e.2 ?_
  rw [row?_of_rows hrows]
  exact mem_inOrder.1 he

/-- A row that cannot be read stands in the way of all others. -/
theorem query_all_of_unreadable {caps : Capabilities} (hcaps : r.capabilities model = .ok caps)
    (hrows : db.rows model = .ok rows) (hunreadable : ¬ db.AllReadable model) :
    db.query r model .all = .error .serialization := by
  obtain ⟨id, row, hrow, hfailed⟩ : ∃ id row, db.row? model id = some row ∧
      row.isReadable = false := by
    simpa [AllReadable] using hunreadable
  rw [row?_of_rows hrows] at hrow
  rw [query_all_eq hcaps hrows]
  exact recordsOf_of_unreadable (mem_inOrder.2 hrow : (id, row) ∈ _) hfailed

/-- The rows of the table are listed, and nothing else. -/
theorem mem_listed {bySort : Bool} {x : Record} : x ∈ listed model bySort rows
    ↔ x.model = model ∧ ∃ row, rows.get? x.id = some row ∧ row.fields.reread = x.fields := by
  rw [listed, shown, List.mem_map]
  constructor
  · rintro ⟨e, he, rfl⟩
    exact ⟨rfl, e.2, mem_inOrder.1 he, rfl⟩
  · rintro ⟨rfl, row, hget, hfields⟩
    exact ⟨(x.id, row), mem_inOrder.2 hget, by rw [hfields]⟩

/-- Whatever their order, rows are told apart by their identifiers. -/
theorem nodup_ids (bySort : Bool) (rows : Dict Row) :
    ((listed model bySort rows).map Record.id).Nodup := by
  have hperm : (inOrder bySort rows).Perm rows.entries := by
    rw [inOrder]
    split
    · exact List.mergeSort_perm ..
    · exact .refl _
  have hkeys : (rows.entries.map Prod.fst).Nodup :=
    List.pairwise_map.2 (rows.increasing.imp Dict.ne_of_text_lt)
  rw [listed, shown, List.map_map]
  exact (hperm.map Prod.fst).nodup_iff.2 hkeys

/-- One record is listed before another by the bytes of its identifier. -/
def IdBefore (x y : Record) : Prop := Text.bytes x.id < Text.bytes y.id

/-- One record is listed before another by its sort value; records without one are last, and those
of the same value are listed by identifier. -/
def SortBefore (x y : Record) : Prop :=
  match sortValue? x.fields, sortValue? y.fields with
  | some m, some n => m < n ∨ m = n ∧ IdBefore x y
  | some _, none => True
  | none, some _ => False
  | none, none => IdBefore x y

theorem listed_byId : (listed model false rows).Pairwise IdBefore := by
  rw [listed, shown, List.pairwise_map]
  exact rows.increasing.imp fun hlt => Text.bytes_lt hlt

theorem listed_bySort (h : ∀ id row, rows.get? id = some row → SortsByNumber row.fields) :
    (listed model true rows).Pairwise SortBefore := by
  -- On these rows the order of cells is a total one.
  have hsorted : inOrder true rows = rows.entries.mergeSort fun a b =>
      sortValueLe (sortValue? a.2.fields) (sortValue? b.2.fields) := by
    have hmap := List.map_mergeSort (f := id) (l := rows.entries)
      (r := fun a b => sortLe (.ofField a.2.fields FieldName.sort)
        (.ofField b.2.fields FieldName.sort))
      (s := fun a b => sortValueLe (sortValue? a.2.fields) (sortValue? b.2.fields))
      fun a ha b hb => sortLe_eq (h a.1 a.2 (Dict.mem_entries.1 ha))
        (h b.1 b.2 (Dict.mem_entries.1 hb))
    simpa [inOrder] using hmap
  have hread {e : String × Row} (he : e ∈ rows.entries) :
      sortValue? e.2.fields.reread = sortValue? e.2.fields :=
    sortValue?_reread (h e.1 e.2 (Dict.mem_entries.1 he))
  rw [listed, shown, hsorted, List.pairwise_map]
  refine (pairwise_mergeSort_stable
    (fun a b => sortValueLe (sortValue? a.2.fields) (sortValue? b.2.fields))
    (fun _ _ _ => sortValueLe_trans _ _ _) (fun _ _ => sortValueLe_total _ _)
    rows.increasing).imp_of_mem fun {a b} ha hb hab => ?_
  obtain ⟨hle, hsame⟩ := hab
  rw [SortBefore, hread (List.mem_mergeSort.1 ha), hread (List.mem_mergeSort.1 hb)]
  cases hm : sortValue? a.2.fields with
  | none =>
    cases hn : sortValue? b.2.fields with
    | none => exact Text.bytes_lt (hsame (by rw [hm, hn]; rfl))
    | some n => simp [hm, hn, sortValueLe] at hle
  | some m =>
    cases hn : sortValue? b.2.fields with
    | none => trivial
    | some n =>
      simp only [hm, hn, sortValueLe, decide_eq_true_eq] at hle hsame
      rcases Int.lt_or_eq_of_le hle with hlt | rfl
      · exact .inl hlt
      · exact .inr ⟨rfl, Text.bytes_lt (hsame (Int.le_refl m))⟩

end Database

/-- Records are the rows of a model, each once and in the order of a query; each has the fields
that the text of its row is read as. -/
structure Store.Lists (row? : String → Option Row) (schema : ModelSchema)
    (records : List Record) : Prop where
  rows : ∀ x, x ∈ records ↔ x.model = schema.name ∧
    ∃ row, row? x.id = some row ∧ Database.decode row.fields = .ok x.fields
  once : (records.map Record.id).Nodup
  byId : schema.capabilities.sort = false → records.Pairwise Database.IdBefore
  bySort : schema.capabilities.sort = true →
    (∀ id row, row? id = some row → SortsByNumber row.fields) →
      records.Pairwise Database.SortBefore

/-- The list of a table whose rows can all be read. -/
theorem Database.lists_listed {db : Database} {schema : ModelSchema} {rows : Dict Row}
    (hrows : db.rows schema.name = .ok rows) (hreadable : db.AllReadable schema.name) :
    Store.Lists (db.row? schema.name) schema
      (listed schema.name schema.capabilities.sort rows) := by
  have hrow (id : String) : db.row? schema.name id = rows.get? id := row?_of_rows hrows id
  refine ⟨fun x => ?_, nodup_ids .., fun hsort => ?_, fun hsort hnumbers => ?_⟩
  · rw [mem_listed]
    refine and_congr_right fun _ => exists_congr fun row => ?_
    rw [hrow]
    refine and_congr_right fun hget => ?_
    have hread : row.fields.isReadable = true := hreadable x.id row ((hrow x.id).trans hget)
    rw [decode, if_pos hread, Except.ok.injEq]
  · rw [hsort]
    exact listed_byId
  · rw [hsort]
    exact listed_bySort fun id row hget => hnumbers id row ((hrow id).trans hget)

end Replica
