/-
Replica.Proofs.Cycle.StoredOverlays — which stored overlays the second pass reads back.

The overlays of a list of records are looked up in pieces of at most `lookupSize` identifiers,
so that a look-up can always be prepared (`fits_pointing`). A look-up picks those rows of the
overlay model, in the order of the store, that point at one of its records and are in the wanted
language (`selects_pointing`). The pieces then come one after the other, so the rows that are
read back are not in the order of the store. But those that point at one record are all in one
piece: the first of them that is asked for is the first in the order of the store
(`find?_storedOverlays`). A row that cannot be read makes its look-up fail, and then no stored
overlay is used (`readBack`).

The database compares a language as it compares any field: an array or an object by its text.
-/
import Replica.Proofs.Cycle.OverlaySource
import Replica.Proofs.Store.QueryAlgebra

namespace Replica

/-! ## Pieces of a list -/

namespace Merger

/-- The pieces are the list again, if the bound allows for one piece per element. -/
theorem flatten_pieces {α : Type} {size : Nat} (hsize : 0 < size) :
    ∀ {bound : Nat} {l : List α}, l.length ≤ bound → (pieces size bound l).flatten = l
  | 0, l, h => by
    rw [List.length_eq_zero_iff.1 (Nat.le_zero.1 h), pieces]
    rfl
  | _ + 1, [], _ => rfl
  | bound + 1, x :: xs, h => by
    have hrest : ((x :: xs).drop size).length ≤ bound := by
      rw [List.length_drop, List.length_cons] at *
      omega
    rw [pieces, List.flatten_cons, flatten_pieces hsize hrest, List.take_append_drop]

theorem length_of_mem_pieces {α : Type} {size bound : Nat} {l piece : List α}
    (h : piece ∈ pieces size bound l) : piece.length ≤ size := by
  induction bound generalizing l with
  | zero => cases h
  | succ bound ih =>
    cases l with
    | nil => cases h
    | cons x xs =>
      rcases List.mem_cons.1 h with rfl | hmore
      · exact List.length_take_le ..
      · exact ih hmore

end Merger

/-! ## The condition of a look-up -/

namespace Condition

variable {fields : Fields}

/-- A field is a text. -/
def isText (field text : String) : Condition := compare (.field field) .eq (.text text)

/-- A row points at one of some records, and is in the wanted language if there is one. -/
def pointing (tag? : Option String) (ids : List String) : Condition :=
  allOf (anyOf (ids.map (isText FieldName.materialId))
    :: (tag?.map (isText FieldName.locale)).toList)

theorem related_text (cell : Cell) (text : String) :
    related .eq cell (.text text) = some true ↔ cell = .text text := by
  cases cell with
  | text value => simp [related, Cell.isMissing, Operator.accepts, Cell.order]
  | _ => simp [related, Cell.isMissing, Operator.accepts, Cell.order, Cell.rank]

theorem eval_isText (id field text : String) :
    eval id fields (isText field text) = some true ↔ Cell.ofField fields field = .text text :=
  related_text ..

theorem evalAll_eq_true {id : String} {conditions : List Condition} :
    evalAll id fields conditions = some true ↔ ∀ c ∈ conditions, eval id fields c = some true := by
  induction conditions with
  | nil => simp [evalAll]
  | cons c rest ih => rw [evalAll, Truth.and_eq_true, ih, List.forall_mem_cons]

theorem evalAny_eq_true {id : String} {conditions : List Condition} :
    evalAny id fields conditions = some true ↔ ∃ c ∈ conditions, eval id fields c = some true := by
  induction conditions with
  | nil => simp [evalAny]
  | cons c rest ih => rw [evalAny, Truth.or_eq_true, ih, List.exists_mem_cons_iff]

/-- What a look-up selects. -/
theorem selects_pointing {tag? : Option String} {ids : List String} {id : String} :
    (pointing tag? ids).selects id fields = true
      ↔ (∃ base ∈ ids, Cell.ofField fields FieldName.materialId = .text base)
        ∧ ∀ tag ∈ tag?, Cell.ofField fields FieldName.locale = .text tag := by
  rw [selects, decide_eq_true_iff, pointing, eval, evalAll_eq_true, List.forall_mem_cons, eval,
    evalAny_eq_true]
  simp [eval_isText]

/-! ### Size -/

theorem laterSymbols_le {bound : Nat} {conditions : List Condition}
    (h : ∀ c ∈ conditions, 2 + symbols c ≤ bound) : laterSymbols conditions ≤ bound := by
  induction conditions with
  | nil => exact Nat.zero_le _
  | cons c rest ih =>
    obtain ⟨hc, hrest⟩ := List.forall_mem_cons.1 h
    rw [laterSymbols]
    exact Nat.max_le.2 ⟨hc, ih hrest⟩

/-- A list of conditions keeps three symbols more than one of them does. -/
theorem listSymbols_le (bound : Nat) {conditions : List Condition}
    (h : ∀ c ∈ conditions, 2 + symbols c ≤ bound) (hbound : 2 ≤ bound) :
    listSymbols conditions ≤ 1 + bound := by
  cases conditions with
  | nil =>
    rw [listSymbols]
    omega
  | cons c rest =>
    obtain ⟨hc, hrest⟩ := List.forall_mem_cons.1 h
    have hlater := laterSymbols_le hrest
    rw [listSymbols]
    refine Nat.add_le_add_left (Nat.max_le.2 ⟨hbound, Nat.max_le.2 ⟨?_, hlater⟩⟩) 1
    omega

/-- Comparisons that are joined one by one add one each. -/
theorem anyHeight?_isText (field : String) : ∀ (texts : List String) {before : Nat}, 3 ≤ before →
    before + texts.length ≤ heightLimit →
      anyHeight? before (texts.map (isText field)) = some (before + texts.length)
  | [], before, _, _ => by simp [anyHeight?]
  | text :: rest, before, hbefore, hlimit => by
    rw [List.length_cons] at hlimit ⊢
    have hjoined : limited (Nat.max before 3 + 1) = some (before + 1) := by
      rw [limited, if_pos] <;> simp [Nat.max_eq_left hbefore]
      omega
    have hmore : anyHeight? (before + 1) (rest.map (isText field))
        = some (before + 1 + rest.length) :=
      anyHeight?_isText field rest (by omega) (by omega)
    rw [List.map_cons, anyHeight?, isText, height?]
    simp only [hjoined, hmore, Option.some.injEq]
    omega

theorem height?_anyOf_isText (field : String) {texts : List String}
    (hlength : texts.length ≤ Merger.lookupSize) :
    ∃ height ≤ 3 + Merger.lookupSize, height? (anyOf (texts.map (isText field))) = some height := by
  cases texts with
  | nil => exact ⟨1, by omega, rfl⟩
  | cons text rest =>
    rw [List.length_cons] at hlength
    have hlimit : 3 + Merger.lookupSize ≤ heightLimit := by decide
    refine ⟨3 + rest.length, by omega, ?_⟩
    rw [List.map_cons, height?, isText, height?]
    exact anyHeight?_isText field rest (Nat.le_refl 3) (by omega)

theorem length_paramsOf_isText (field : String) (texts : List String) :
    (paramsOf (texts.map (isText field))).length = texts.length := by
  induction texts with
  | nil => rfl
  | cons text rest ih => rw [List.map_cons, paramsOf, List.length_append, ih, isText, params,
      List.length_singleton, List.length_cons, Nat.add_comm]

/-- A look-up of one piece can be prepared. -/
theorem fits_pointing (tag? : Option String) {ids : List String}
    (hlength : ids.length ≤ Merger.lookupSize) : (pointing tag? ids).fits = true := by
  have hsymbols : symbols (anyOf (ids.map (isText FieldName.materialId))) ≤ 1 + 9 := by
    rw [symbols]
    refine listSymbols_le 9 (fun c hc => ?_) (by decide)
    obtain ⟨id, -, rfl⟩ := List.mem_map.1 hc
    exact Nat.le_refl 9
  obtain ⟨height, hbound, hheight⟩ := height?_anyOf_isText FieldName.materialId hlength
  have hparams := length_paramsOf_isText FieldName.materialId ids
  have hlookup : Merger.lookupSize = 200 := rfl
  rw [fits, Bool.and_eq_true, Bool.and_eq_true, decide_eq_true_iff, decide_eq_true_iff]
  refine ⟨⟨?_, ?_⟩, ?_⟩
  · rw [pointing, symbols]
    refine Nat.le_trans (listSymbols_le 12 (fun c hc => ?_) (by decide)) (by decide)
    rcases List.mem_cons.1 hc with rfl | hlocale
    · omega
    · obtain ⟨tag, -, rfl⟩ := Option.map_eq_some_iff.1 (Option.mem_toList.1 hlocale)
      exact (by decide : 2 + 7 ≤ 12)
  · cases tag? with
    | none => simp [pointing, height?, hheight, allHeight?]
    | some tag =>
      have hlimit : limited (Nat.max height 3 + 1) = some (Nat.max height 3 + 1) := by
        rw [limited, if_pos]
        have hmax : Nat.max height 3 ≤ 3 + Merger.lookupSize := Nat.max_le.2 ⟨hbound, by omega⟩
        rw [heightLimit]
        omega
      simp only [pointing, height?, hheight, Option.map_some, Option.toList_some, allHeight?,
        isText, isZero, Bool.or_false, hlimit]
      split <;> rfl
  · cases tag? <;>
      simp only [pointing, params, paramsOf, hparams, Option.map_some, Option.map_none,
        Option.toList_some, Option.toList_none, isText, paramLimit, List.length_append,
        List.length_nil, List.length_singleton] <;> omega

end Condition

/-! ## Rows that are read back -/

/-- The cell that the database has for a text field of a record that it answers with. -/
theorem Record.ofField_of_text? {model id : String} {row : Row} {field text : String}
    (h : (Record.mk model id row.fields.reread).text? field = some text) :
    Cell.ofField row.fields field = .text text := by
  obtain ⟨value, hvalue, htext⟩ := Option.bind_eq_some_iff.1 h
  rw [get?] at hvalue
  split at hvalue
  · cases hvalue
  · have hfield := (Option.filter_eq_some_iff.1 hvalue).1
    rw [Fields.get?_reread] at hfield
    obtain ⟨stored, hstored, rfl⟩ := Option.map_eq_some_iff.1 hfield
    rw [Json.asText?_reread] at htext
    cases stored <;> cases htext
    rw [Cell.ofField, hstored]
    rfl

/-- A record that is read is told by its model and its identifier. -/
theorem Database.Shows.eq {db : Database} {x y : Record} (hx : db.Shows x) (hy : db.Shows y)
    (hmodel : x.model = y.model) (hid : x.id = y.id) : x = y := by
  obtain ⟨row, hrow, hfields⟩ := hx
  obtain ⟨row', hrow', hfields'⟩ := hy
  rw [hmodel, hid, hrow'] at hrow
  cases hrow
  rw [hfields'] at hfields
  obtain ⟨model, id, fields⟩ := x
  cases hmodel
  cases hid
  cases hfields
  rfl

/-- The rows of a model in the order of the store; none if it has no table. -/
def Database.rowsOf (db : Database) (schema : ModelSchema) : List (String × Row) :=
  match db.rows schema.name with
  | .ok rows => inOrder schema.capabilities.sort rows
  | .error _ => []

theorem Database.row?_of_mem_rowsOf {db : Database} {schema : ModelSchema} {e : String × Row}
    (h : e ∈ db.rowsOf schema) : db.row? schema.name e.1 = some e.2 := by
  rw [rowsOf] at h
  split at h
  · rename_i rows hrows
    rw [row?_of_rows hrows]
    exact mem_inOrder.1 h
  · cases h

namespace Merger

open Database

variable {m : Merger} {db : Database} {overlay : ModelSchema} {base : String}

/-- The language that the rows of an overlay model are looked up in. -/
def tag? (m : Merger) (overlay : ModelSchema) : Option String :=
  if overlay.capabilities.locale then m.locale else none

/-- A row points at one of some records. The database reads a text as itself, and an array or an
object as its compact text. -/
def PointsAt (ids : List String) (row : Row) : Prop :=
  ∃ id ∈ ids, Cell.ofField row.fields FieldName.materialId = .text id

/-- A row is in a language, as the database reads it, if there is one to be in. -/
def Speaks (tag? : Option String) (row : Row) : Prop :=
  ∀ tag ∈ tag?, Cell.ofField row.fields FieldName.locale = .text tag

instance (ids : List String) (row : Row) : Decidable (PointsAt ids row) :=
  inferInstanceAs (Decidable (∃ id ∈ ids, _))

instance (tag? : Option String) (row : Row) : Decidable (Speaks tag? row) :=
  inferInstanceAs (Decidable (∀ tag ∈ tag?, _))

/-- The rows of a list that point at one of some records and are in a language. -/
def pick (tag? : Option String) (ids : List String) (rows : List (String × Row)) :
    List (String × Row) :=
  rows.filter fun e => PointsAt ids e.2 ∧ Speaks tag? e.2

/-- The overlays of some records that are read back: the rows of the overlay model that point at
them and are in the language of the look-up. If one of them cannot be read, none is. -/
def readBack (m : Merger) (overlay : ModelSchema) (ids : List String) (db : Database) :
    List Record :=
  (recordsOf overlay.name (pick (m.tag? overlay) ids (db.rowsOf overlay))).toOption.getD []

theorem mem_pick {tag? : Option String} {ids : List String} {rows : List (String × Row)}
    {e : String × Row} :
    e ∈ pick tag? ids rows ↔ e ∈ rows ∧ PointsAt ids e.2 ∧ Speaks tag? e.2 := by
  rw [pick, List.mem_filter, decide_eq_true_iff]

/-- What is left of an answer if its failure counts for nothing. -/
theorem getD_recordsOf (model : String) (entries : List (String × Row)) :
    (recordsOf model entries).toOption.getD []
      = if entries.all (·.2.isReadable) then shown model entries else [] := by
  rw [recordsOf_eq]
  split <;> rfl

/-- What is read back are rows that are picked, all of which can be read. -/
theorem mem_readBack {ids : List String} {x : Record} (h : x ∈ m.readBack overlay ids db) :
    ∃ e ∈ (pick (m.tag? overlay) ids (db.rowsOf overlay)).filter (·.2.isReadable),
      ⟨overlay.name, e.1, e.2.fields.reread⟩ = x := by
  rw [readBack, getD_recordsOf] at h
  split at h
  · rename_i hall
    rw [List.filter_eq_self.2 (List.all_eq_true.1 hall)]
    exact List.mem_map.1 h
  · cases h

theorem shows_of_mem_readBack {ids : List String} {x : Record}
    (h : x ∈ m.readBack overlay ids db) : x.model = overlay.name ∧ db.Shows x := by
  obtain ⟨e, he, rfl⟩ := mem_readBack h
  obtain ⟨hpicked, hreadable⟩ := List.mem_filter.1 he
  exact ⟨rfl, e.2, row?_of_mem_rowsOf (mem_pick.1 hpicked).1, if_pos hreadable⟩

theorem ofPredicates_isText (field : String) (hfield : Column.ofField field = .ok (.field field))
    (texts : List String) :
    Condition.ofPredicates (texts.map fun text => .compare field .eq (.str text))
      = .ok (texts.map (Condition.isText field)) := by
  induction texts with
  | nil => rfl
  | cons text rest ih =>
    rw [List.map_cons, Condition.ofPredicates, Condition.ofPredicate, hfield, ih]
    rfl

theorem ofPredicate_overlaysOf (caps : Capabilities) (locale : Option String)
    (ids : List String) : Condition.ofPredicate (overlaysOf caps locale ids)
      = .ok (Condition.pointing (if caps.locale then locale else none) ids) := by
  have hids := ofPredicates_isText FieldName.materialId (by decide +kernel) ids
  have hlocale : Column.ofField FieldName.locale = .ok (.field FieldName.locale) := by
    decide +kernel
  cases locale with
  | none =>
    simp [overlaysOf, Predicate.both, Predicate.conjuncts, Condition.ofPredicate,
      Condition.ofPredicates, hids, Condition.pointing]
  | some tag =>
    cases hdeclares : caps.locale <;>
      simp [overlaysOf, Predicate.both, Predicate.conjuncts, Condition.ofPredicate,
        Condition.ofPredicates, hids, hlocale, Condition.pointing, hdeclares, Condition.isText,
        Cell.ofJson]

/-! ## One look-up and all of them -/

/-- A look-up finds the rows that it is for. -/
theorem selected_pointing (tag? : Option String) (ids : List String)
    (rows : List (String × Row)) :
    selected rows (Condition.pointing tag? ids) = pick tag? ids rows := by
  refine List.filter_congr fun e _ => Bool.eq_iff_iff.2 ?_
  rw [decide_eq_true_iff]
  exact Condition.selects_pointing

/-- Lists of rows are read one after the other, or not at all. -/
theorem recordsOf_append (model : String) (es fs : List (String × Row)) :
    recordsOf model (es ++ fs)
      = (do return (← recordsOf model es) ++ (← recordsOf model fs)) := by
  simp only [recordsOf_eq, List.all_append, List.map_append]
  by_cases hes : es.all (·.2.isReadable) = true <;> by_cases hfs : fs.all (·.2.isReadable) = true <;>
    simp [hes, hfs, bind, Except.bind, pure, Except.pure]

/-- Look-ups of one piece after the other read the rows that they find. -/
theorem lookUp_rowsOf (hoverlay : overlay ∈ m.registry.models) {rows : Dict Row}
    (hrows : db.rows overlay.name = .ok rows) (ps : List (List String))
    (hps : ∀ ids ∈ ps, ids.length ≤ lookupSize) :
    (lookUp overlay.name (overlaysOf overlay.capabilities m.locale) ps
        (Store.opened m.registry db)).1
      = recordsOf overlay.name
        (ps.flatMap fun ids => pick (m.tag? overlay) ids (db.rowsOf overlay)) := by
  have hcaps := m.registry.capabilities_of_mem hoverlay
  have hrowsOf : db.rowsOf overlay = inOrder overlay.capabilities.sort rows := by
    rw [rowsOf, hrows]
  induction ps with
  | nil => rfl
  | cons ids more ih =>
    obtain ⟨hids, hmore⟩ := List.forall_mem_cons.1 hps
    have hquery := Database.query_eq hcaps hrows
      (ofPredicate_overlaysOf overlay.capabilities m.locale ids)
    rw [if_pos (Condition.fits_pointing _ hids), selected_pointing] at hquery
    rw [lookUp_cons, Store.query, hquery, ih hmore, List.flatMap_cons, recordsOf_append, hrowsOf]
    rfl

/-- The first of the picked rows that is asked for and points at a record is the first such row
of all, when the record is among those of the look-up, and there is none otherwise. -/
theorem find?_pick {tag? : Option String} {p : String × Row → Bool}
    (hp : ∀ e, p e = true → Cell.ofField e.2.fields FieldName.materialId = .text base)
    (ids : List String) (rows : List (String × Row)) : (pick tag? ids rows).find? p
      = if base ∈ ids then rows.find? fun e => Speaks tag? e.2 ∧ p e = true else none := by
  have hpoints {e : String × Row} (he : p e = true) : PointsAt ids e.2 ↔ base ∈ ids := by
    simp [PointsAt, hp e he]
  rw [pick, List.find?_filter]
  split
  · rename_i hmem
    refine congrArg (List.find? · rows) (funext fun e => decide_eq_decide.2 ?_)
    rw [decide_eq_true_iff]
    exact and_congr_left fun he => and_iff_right ((hpoints he).2 hmem)
  · rename_i hmem
    refine List.find?_eq_none.2 fun e _ he => hmem ?_
    obtain ⟨hpicked, he⟩ := of_decide_eq_true he
    exact (hpoints he).1 (of_decide_eq_true hpicked).1

/-- Searching one piece after the other finds what is in one of them. -/
theorem findSome?_pieces {α : Type} (found : Option α) (ps : List (List String)) :
    (ps.findSome? fun ids => if base ∈ ids then found else none)
      = if base ∈ ps.flatten then found else none := by
  induction ps with
  | nil => rfl
  | cons ids more ih =>
    rw [List.findSome?_cons, ih, List.flatten_cons]
    by_cases hids : base ∈ ids <;> cases found <;> simp [hids]

/-- The pieces find what one look-up of all would find, in another order. -/
theorem mem_pick_flatten {tag? : Option String} {ps : List (List String)}
    {rows : List (String × Row)} {e : String × Row} :
    (e ∈ ps.flatMap fun ids => pick tag? ids rows) ↔ e ∈ pick tag? ps.flatten rows := by
  simp only [List.mem_flatMap, mem_pick, PointsAt, List.mem_flatten]
  constructor
  · rintro ⟨ids, hids, hrow, ⟨id, hid, hpoints⟩, hspeaks⟩
    exact ⟨hrow, ⟨id, ⟨ids, hids, hid⟩, hpoints⟩, hspeaks⟩
  · rintro ⟨hrow, ⟨id, ⟨ids, hids, hid⟩, hpoints⟩, hspeaks⟩
    exact ⟨ids, hids, hrow, ⟨id, hid, hpoints⟩, hspeaks⟩

theorem find?_pick_flatten {tag? : Option String} {p : String × Row → Bool}
    (hp : ∀ e, p e = true → Cell.ofField e.2.fields FieldName.materialId = .text base)
    (ps : List (List String)) (rows : List (String × Row)) :
    (ps.flatMap fun ids => pick tag? ids rows).find? p = (pick tag? ps.flatten rows).find? p := by
  rw [List.find?_flatMap, find?_pick hp]
  simp only [find?_pick hp]
  exact findSome?_pieces _ ps

/-- A model without a table has no rows that could be read back. -/
theorem storedOverlays_of_error {job : OverlayJob} (hjob : job.overlay = overlay.name)
    {e : StoreError} (hrows : db.rows overlay.name = .error e) :
    (m.storedOverlays job (Store.opened m.registry db)).1 = [] := by
  refine List.eq_nil_iff_forall_not_mem.2 fun x hx => ?_
  obtain ⟨hmodel, row, hrow, -⟩ := row_of_storedOverlay hx
  rw [hmodel, hjob, row?, hrows] at hrow
  cases hrow

/-- **Reading back.** Of the stored overlays of a record, the first one that is asked for is the
first one in the order of the store. -/
theorem find?_storedOverlays (hoverlay : overlay ∈ m.registry.models) {job : OverlayJob}
    (hjob : job.overlay = overlay.name) {p : Record → Bool}
    (hp : ∀ x, p x = true → x.materialId? = some base) :
    (m.storedOverlays job (Store.opened m.registry db)).1.find? p
      = (m.readBack overlay job.baseIds db).find? p := by
  cases hrows : db.rows overlay.name with
  | error e =>
    rw [storedOverlays_of_error hjob hrows, readBack, rowsOf, hrows]
    rfl
  | ok rows =>
    have hfound := lookUp_rowsOf hoverlay hrows (pieces lookupSize job.baseIds.length job.baseIds)
      fun ids hids => length_of_mem_pieces hids
    have hflatten := flatten_pieces (by decide : 0 < lookupSize) (Nat.le_refl job.baseIds.length)
    -- The pieces find the rows of one look-up, so a row that cannot be read is in both or in none.
    have hreadable : ((pieces lookupSize job.baseIds.length job.baseIds).flatMap fun ids =>
        pick (m.tag? overlay) ids (db.rowsOf overlay)).all (·.2.isReadable)
        = (pick (m.tag? overlay) job.baseIds (db.rowsOf overlay)).all (·.2.isReadable) := by
      rw [Bool.eq_iff_iff, List.all_eq_true, List.all_eq_true]
      simp only [mem_pick_flatten, hflatten]
    have hok : (Except.ok overlay.capabilities : Except SchemaError Capabilities).toOption
        = some overlay.capabilities := rfl
    rw [storedOverlays_eq, hjob, m.registry.capabilities_of_mem hoverlay, hok]
    dsimp only [Option.bind_some]
    rw [hfound, readBack, getD_recordsOf, getD_recordsOf, hreadable]
    split
    · have hpoints : ∀ e : String × Row,
          (p ∘ fun e => ⟨overlay.name, e.1, e.2.fields.reread⟩) e = true →
            Cell.ofField e.2.fields FieldName.materialId = .text base :=
        fun e he => Record.ofField_of_text? (hp _ he)
      rw [shown, shown, List.find?_map, List.find?_map, find?_pick_flatten hpoints, hflatten]
    · rfl

end Merger

end Replica
