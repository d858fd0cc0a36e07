/-
Replica.Proofs.Cycle.ChosenOverlay — which display fields the second pass gives, and to whom.

For an overlay model and the model that it is laid over, the records that count are those that
the live overlays of the merge point at, and the live records of the model itself (`baseIds`).
The overlays of these are the live ones in the order of their arrival, and then the stored ones
in the order of the store, as the first pass has left them (`overlaysFor`). Of the overlays that
point at a record the first is chosen, once overlays that repeat an identifier are left out
(`chosen?`). The main statement is `merge_localized`: the record's row gets the name of the chosen
overlay unless that is empty, and its sort value if it stands for an integer; the rows that get
one of the two are counted. Such a row is written again, so its other fields are as its text is
read, and one that cannot be read gets nothing. No other row changes.

A stored overlay is in the configured language if the database reads its language as that text.
The database reads a list by its text, so a list of languages can be the configured one
(`listedTag_applied`).
-/
import Replica.Proofs.Cycle.LastArrival
import Replica.Proofs.Cycle.StoredOverlays

namespace Replica

namespace Merger

variable {m : Merger} {r : Registry} {groups : List ModelGroup} {db settled after : Database}
  {stats : MergeStats} {overlay : ModelSchema} {model base : String} {job : OverlayJob}

/-! ## The chosen overlay -/

/-- The records that the live overlays of a merge point at, and its live records of the model
that they are laid over. -/
def baseIds (groups : List ModelGroup) (overlay model : String) : List String :=
  (liveRecords groups overlay).filterMap Record.materialId?
    ++ (liveRecords groups model).map (·.id)

/-- The overlays of these records, the ones that win first: the live ones in the order of
arrival, then the stored ones in the order of the store. -/
def overlaysFor (m : Merger) (groups : List ModelGroup) (overlay : ModelSchema) (model : String)
    (db : Database) : List Record :=
  liveRecords groups overlay.name
    ++ m.readBack overlay (baseIds groups overlay.name model) db

/-- The first overlay that points at a record, of those that repeat no identifier. -/
def chosen? (m : Merger) (groups : List ModelGroup) (overlay : ModelSchema) (model : String)
    (db : Database) (base : String) : Option Record :=
  (unmet [] (m.overlaysFor groups overlay model db)).find? (·.materialId? = some base)

/-- Records of a list are told by their identifiers. -/
def Told (records : List Record) : Prop :=
  ∀ x ∈ records, ∀ y ∈ records, x.id = y.id → x = y

/-- Among records that are told by their identifiers, only those that were met before are left
out. -/
theorem find?_unmet (p : Record → Bool) {records : List Record} (htold : Told records)
    (seen : List String) : (unmet seen records).find? p
      = records.find? fun x => x.id ∉ seen ∧ p x = true := by
  induction records generalizing seen with
  | nil => rfl
  | cons y rest ih =>
    have hrest : Told rest := fun x hx z hz =>
      htold x (List.mem_cons_of_mem _ hx) z (List.mem_cons_of_mem _ hz)
    rw [unmet]
    by_cases hseen : y.id ∈ seen
    · simp [hseen, ih hrest]
    · by_cases hp : p y = true
      · simp [hseen, hp]
      · -- A later record with the identifier of this one would be this one.
        have hlater : rest.filter (fun x => x.id ∉ y.id :: seen ∧ p x = true)
            = rest.filter fun x => x.id ∉ seen ∧ p x = true := by
          refine List.filter_congr fun x hx => decide_eq_decide.2 (and_congr_left fun hpx => ?_)
          have hne : x.id ≠ y.id := by
            intro hid
            cases htold x (List.mem_cons_of_mem _ hx) y (List.mem_cons_self ..) hid
            exact hp hpx
          simp [hne]
        simp only [List.contains_eq_mem, hseen, decide_false, Bool.false_eq_true, if_false,
          List.find?_cons_of_neg hp, ih hrest]
        rw [← List.head?_filter, hlater, List.head?_filter, List.find?_cons_of_neg (by simp [hp])]

/-- Stored overlays that repeat the identifier of a fresh one are left out. -/
theorem find?_unmet_append (p : Record → Bool) {stored : List Record} (htold : Told stored)
    (seen : List String) (fresh : List Record) : (unmet seen (fresh ++ stored)).find? p
      = ((unmet seen fresh).find? p).or
        (stored.find? fun x => x.id ∉ fresh.map (·.id) ++ seen ∧ p x = true) := by
  induction fresh generalizing seen with
  | nil => exact find?_unmet p htold seen
  | cons y rest ih =>
    rw [List.cons_append, unmet, unmet]
    by_cases hseen : y.id ∈ seen
    · have hmet (x : Record) : x.id ∉ rest.map (·.id) ++ seen
          ↔ x.id ∉ (y :: rest).map (·.id) ++ seen := by
        simp only [List.map_cons, List.cons_append, List.mem_cons, List.mem_append, not_or]
        exact ⟨fun h => ⟨fun hid => h.2 (hid ▸ hseen), h⟩, fun h => h.2⟩
      simp only [List.contains_eq_mem, hseen, decide_true, if_true, ih, hmet]
    · have hmet (x : Record) : x.id ∉ rest.map (·.id) ++ y.id :: seen
          ↔ x.id ∉ (y :: rest).map (·.id) ++ seen := by
        simp only [List.map_cons, List.cons_append, List.mem_cons, List.mem_append]
        tauto
      by_cases hp : p y = true
      · simp [hseen, hp]
      · simp only [List.contains_eq_mem, hseen, decide_false, Bool.false_eq_true, if_false,
          List.find?_cons_of_neg hp, ih, hmet]

/-- Which stored overlays come first matters for those alone that point at the record. -/
theorem find?_unmet_congr {p : Record → Bool} (hp : ∀ x, p x = true → x.materialId? = some base)
    {stored stored' : List Record} (htold : Told stored) (htold' : Told stored')
    (hsame : ∀ q : Record → Bool, (∀ x, q x = true → x.materialId? = some base) →
      stored.find? q = stored'.find? q) (fresh : List Record) :
    (unmet [] (fresh ++ stored)).find? p = (unmet [] (fresh ++ stored')).find? p := by
  rw [find?_unmet_append p htold, find?_unmet_append p htold', hsame]
  intro x hx
  exact hp x (of_decide_eq_true hx).2

/-! ## What the jobs have for a record -/

theorem mem_distinct {ids : List String} {id : String} : id ∈ distinct ids ↔ id ∈ ids := by
  suffices h : ∀ seen : List String, id ∈ ids.foldl
      (fun seen id => if seen.contains id then seen else seen ++ [id]) seen ↔ id ∈ seen ∨ id ∈ ids by
    simpa [distinct] using h []
  induction ids with
  | nil => simp
  | cons x rest ih =>
    intro seen
    rw [List.foldl_cons, ih, List.mem_cons]
    split
    · rename_i hseen
      have hx : x ∈ seen := by simpa using hseen
      exact ⟨Or.imp_right .inr, fun h => h.elim .inl (Or.elim · (fun e => .inl (e ▸ hx)) .inr)⟩
    · simp [or_assoc]

theorem readBack_congr {ids ids' : List String} (h : ∀ id, id ∈ ids ↔ id ∈ ids') :
    m.readBack overlay ids db = m.readBack overlay ids' db := by
  have hpick (rows : List (String × Row)) :
      pick (m.tag? overlay) ids rows = pick (m.tag? overlay) ids' rows :=
    List.filter_congr fun e _ => decide_eq_decide.2 (by simp only [PointsAt, h])
  rw [readBack, readBack, hpick]

/-- Records of one model that are read are told by their identifiers. -/
theorem told_of_shows {records : List Record} {model : String}
    (h : ∀ x ∈ records, x.model = model ∧ db.Shows x) : Told records := by
  intro x hx y hy hid
  obtain ⟨hmodel, hshows⟩ := h x hx
  obtain ⟨hmodel', hshows'⟩ := h y hy
  exact hshows.eq hshows' (hmodel.trans hmodel'.symm) hid

/-- The job for an overlay model chooses the overlay of a record. -/
theorem labelsOf_candidates (hoverlay : overlay ∈ m.registry.models) (model key : String) :
    labelsOf (m.candidates (.opened m.registry db) (jobFor groups overlay.name model)) key
      = (m.chosen? groups overlay model db key).elim [] patchOf := by
  have hids : m.readBack overlay (jobFor groups overlay.name model).baseIds db
      = m.readBack overlay (baseIds groups overlay.name model) db :=
    readBack_congr fun id => mem_distinct
  have hpoints (x : Record) (hx : decide (x.materialId? = some key) = true) :
      x.materialId? = some key := of_decide_eq_true hx
  have hstored : Told (m.storedOverlays (jobFor groups overlay.name model)
      (Store.opened m.registry db)).1 := told_of_shows fun x hx => row_of_storedOverlay hx
  have hfind := find?_unmet_congr hpoints hstored
    (told_of_shows fun x hx => shows_of_mem_readBack hx)
    (fun q hq => find?_storedOverlays hoverlay rfl hq) (liveRecords groups overlay.name)
  rw [labelsOf, firstLabels, chosen?, overlaysFor, ← hids]
  exact congrArg (Option.elim · [] patchOf) hfind

/-- A record is chosen an overlay for only if it counts. -/
theorem mem_baseIds_of_chosen? {x : Record} (h : m.chosen? groups overlay model db base = some x) :
    base ∈ baseIds groups overlay.name model := by
  have hpoints : x.materialId? = some base := by simpa using List.find?_some h
  have hfind := (find?_of_mem_unmet (List.mem_of_find?_eq_some h)).2
  rcases List.mem_append.1 (List.mem_of_find?_eq_some hfind) with hfresh | hstored
  · exact List.mem_append_left _ (List.mem_filterMap.2 ⟨x, hfresh, hpoints⟩)
  · obtain ⟨e, he, rfl⟩ := mem_readBack hstored
    obtain ⟨-, ⟨id, hid, hcell⟩, -⟩ := mem_pick.1 (List.mem_filter.1 he).1
    cases (Record.ofField_of_text? hpoints).symm.trans hcell
    exact hid

/-- There is one overlay model for a model. -/
theorem LaidOver.unique {other : ModelSchema} (h : LaidOver r overlay model)
    (hother : LaidOver r other model) : other = overlay := by
  obtain ⟨hmem, -, htarget⟩ := h
  obtain ⟨hmem', -, htarget'⟩ := hother
  obtain ⟨target, hbase, hname⟩ := Option.map_eq_some_iff.1 htarget
  obtain ⟨target', hbase', hname'⟩ := Option.map_eq_some_iff.1 htarget'
  have hsame : other.name = overlay.name := by
    rw [Registry.name_of_overlayTarget? hbase, Registry.name_of_overlayTarget? hbase', hname, hname']
  have hfind := Registry.find?_of_mem hmem'
  rw [hsame, Registry.find?_of_mem hmem] at hfind
  exact (Option.some.inj hfind).symm

/-- There is a job when some record counts. -/
theorem exists_job (h : LaidOver r overlay model) (hids : base ∈ baseIds groups overlay.name model) :
    ∃ job ∈ jobs r groups, job.target = model := by
  obtain ⟨hmem, hmaterial, htarget⟩ := h
  obtain ⟨target, hbase, rfl⟩ := Option.map_eq_some_iff.1 htarget
  have hsome : (jobFor groups overlay.name target.name).baseIds.isEmpty = false :=
    List.isEmpty_eq_false_iff_exists_mem.2 ⟨base, mem_distinct.2 hids⟩
  refine ⟨jobFor groups overlay.name target.name, List.mem_filterMap.2 ⟨overlay, hmem, ?_⟩, rfl⟩
  simp [jobOf?, hbase, hmaterial, hsome]

/-- What the jobs have for a record of a model that an overlay is laid over. -/
theorem labels_chosen (h : LaidOver m.registry overlay model) (key : String) :
    m.labels (.opened m.registry db) (jobs m.registry groups) model key
      = (m.chosen? groups overlay model db key).elim [] patchOf := by
  rw [labels]
  cases hfind : (jobs m.registry groups).find? (·.target = model) with
  | some job =>
    have htarget : job.target = model := by simpa using List.find?_some hfind
    obtain ⟨other, hmem, hof⟩ := List.mem_filterMap.1 (List.mem_of_find?_eq_some hfind)
    obtain ⟨target, hbase, hmaterial, rfl⟩ := jobOf?_eq_some hof
    have hname : target.name = model := htarget
    have hother : LaidOver m.registry other model :=
      ⟨hmem, hmaterial, by rw [hbase, Option.map_some, hname]⟩
    obtain rfl := h.unique hother
    rw [Option.elim_some, hname]
    exact labelsOf_candidates hmem model key
  | none =>
    -- Without a job no record counts.
    have hnone : m.chosen? groups overlay model db key = none := by
      refine Option.eq_none_iff_forall_ne_some.2 fun x hx => ?_
      obtain ⟨job, hjob, htarget⟩ := exists_job h (mem_baseIds_of_chosen? hx)
      exact List.find?_eq_none.1 hfind job hjob (decide_eq_true htarget)
    rw [hnone]
    rfl

/-! ## The rows of a merge -/

/-- A row after an overlay was laid over it: the name is the overlay's unless that is empty, the
sort value is the overlay's if that stands for an integer, and the rest is what the text of the row
is read as. -/
structure Overlaid (x : Record) (row row' : Row) : Prop where
  version : row'.version = row.version
  name : row'.fields.get? FieldName.name
    = (x.displayName?.map Json.str).or ((row.fields.get? FieldName.name).map Json.reread)
  sort : row'.fields.get? FieldName.sort
    = (x.sort?.map Json.int).or ((row.fields.get? FieldName.sort).map Json.reread)
  others : ∀ field, field ≠ FieldName.name → field ≠ FieldName.sort →
    row'.fields.get? field = (row.fields.get? field).map Json.reread

theorem overlaid_rewritten (x : Record) (row : Row) :
    Overlaid x row (row.rewritten (patchOf x)) := by
  refine ⟨rfl, ?_, ?_, fun field hname hsort => ?_⟩ <;> rw [Row.get?_rewritten]
  · rw [patchOf]
    cases x.displayName? <;> cases x.sort? <;> rfl
  · rw [patchOf]
    cases x.displayName? <;> cases x.sort? <;> rfl
  · have hnone : patchValue? field (patchOf x) = none := patchValue?_eq_none fun e he hsame =>
      (name_of_mem_patchOf he).elim (hname <| hsame ▸ ·) (hsort <| hsame ▸ ·)
    rw [hnone]
    rfl

/-- An overlay has a name or a sort value to give. -/
def Gives (x : Record) : Prop := x.displayName?.isSome = true ∨ x.sort?.isSome = true

instance (x : Record) : Decidable (Gives x) := inferInstanceAs (Decidable (_ ∨ _))

theorem patchOf_ne_nil {x : Record} : patchOf x ≠ [] ↔ Gives x := by
  rw [patchOf, Gives]
  cases x.displayName? <;> cases x.sort? <;> simp

/-- What becomes of a row in view of the overlay that is chosen for it. -/
inductive LabeledBy (chosen? : Option Record) (row : Row) : Row → Prop
  /-- The overlay is laid over the row, as its text is read. -/
  | overlaid {x : Record} {row' : Row} (hchosen : chosen? = some x) (hgives : Gives x)
    (hreadable : row.isReadable = true) (h : Overlaid x row row') : LabeledBy chosen? row row'
  /-- No overlay is chosen that has something to give, or the row cannot be read. -/
  | kept (h : ∀ x ∈ chosen?, Gives x → row.isReadable = false) : LabeledBy chosen? row row

/-- What the second pass does. -/
structure Localized (m : Merger) (groups : List ModelGroup) (settled after : Database)
    (localized : Nat) : Prop where
  /-- A row gets the display fields of the overlay that is chosen for it. -/
  chosen : ∀ overlay model, LaidOver m.registry overlay model → ∀ key,
    Option.Rel (LabeledBy (m.chosen? groups overlay model settled key))
      (settled.row? model key) (after.row? model key)
  /-- A row that does not count stays. -/
  uncounted : ∀ overlay model, LaidOver m.registry overlay model →
    ∀ key ∉ baseIds groups overlay.name model, after.row? model key = settled.row? model key
  /-- So do the rows of models that no overlay is laid over. -/
  untargeted : ∀ model ∈ m.registry.modelNames, ¬ IsBase m.registry model →
    ∀ key, after.row? model key = settled.row? model key
  keeps : Database.Keeps m.registry settled after
  /-- The rows that get a name or a sort value are counted, each once. -/
  counted : ∃ labeled : List (String × String), labeled.Nodup ∧ localized = labeled.length
    ∧ ∀ model key, (model, key) ∈ labeled ↔ (∃ row ∈ settled.row? model key, row.isReadable = true)
      ∧ ∃ overlay x, LaidOver m.registry overlay model
        ∧ m.chosen? groups overlay model settled key = some x ∧ Gives x

theorem isBase_iff : IsBase r model ↔ ∃ overlay, LaidOver r overlay model :=
  Iff.rfl

/-- The jobs have something for a record exactly when an overlay that gives something is
chosen. -/
theorem labels_ne_nil {key : String} :
    m.labels (.opened m.registry db) (jobs m.registry groups) model key ≠ []
      ↔ ∃ overlay x, LaidOver m.registry overlay model
        ∧ m.chosen? groups overlay model db key = some x ∧ Gives x := by
  by_cases hbase : IsBase m.registry model
  · obtain ⟨overlay, hover⟩ := isBase_iff.1 hbase
    rw [labels_chosen hover key]
    constructor
    · intro hlabels
      cases hchosen : m.chosen? groups overlay model db key with
      | none => exact absurd (by rw [hchosen]; rfl) hlabels
      | some x =>
        rw [hchosen] at hlabels
        exact ⟨overlay, x, hover, hchosen, patchOf_ne_nil.1 hlabels⟩
    · rintro ⟨other, x, hother, hchosen, hgives⟩
      obtain rfl := hover.unique hother
      rw [hchosen]
      exact patchOf_ne_nil.2 hgives
  · rw [labels_of_not_isBase hbase]
    refine iff_of_false (fun h => h rfl) ?_
    rintro ⟨overlay, x, hover, -, -⟩
    exact hbase (isBase_iff.2 ⟨overlay, hover⟩)

theorem mem_modelNames_of_isBase (h : IsBase r model) : model ∈ r.modelNames := by
  obtain ⟨overlay, -, -, htarget⟩ := h
  obtain ⟨target, hbase, rfl⟩ := Option.map_eq_some_iff.1 htarget
  exact List.mem_map_of_mem (Registry.overlayTarget?_eq_some_iff.1 hbase).1

theorem labeledBy_patched (chosen? : Option Record) (row : Row) :
    LabeledBy chosen? row (row.patched (chosen?.elim [] patchOf)) := by
  cases chosen? with
  | none =>
    rw [Option.elim_none, Row.patched_nil]
    exact .kept (by simp)
  | some x =>
    rw [Option.elim_some]
    by_cases hgives : Gives x
    · cases hrow : row.isReadable with
      | true =>
        rw [Row.patched_of_readable (patchOf_ne_nil.2 hgives) hrow]
        exact .overlaid rfl hgives hrow (overlaid_rewritten x row)
      | false =>
        rw [Row.patched_of_unreadable _ hrow]
        exact .kept fun _ _ _ => hrow
    · rw [not_not.1 (mt patchOf_ne_nil.1 hgives), Row.patched_nil]
      refine .kept fun y hy hgivesToo => ?_
      cases hy
      exact absurd hgivesToo hgives

theorem canPatch_iff {key : String} : db.canPatch model key = true
    ↔ ∃ row ∈ db.row? model key, row.isReadable = true := by
  rw [Database.canPatch, Option.any_eq_true]
  rfl

namespace Stickers

/-- The names of stickers in other languages, each with its language. -/
def names : ModelSchema :=
  ((((ModelSchema.named "StickerLocale").declare FieldName.name .string).declare
    FieldName.materialId .string).declare FieldName.locale .string)

def translated : Registry where
  version := "v1"
  models := [(ModelSchema.named "Sticker").declare FieldName.name .string, names]
  words := by decide +kernel
  distinct := by decide +kernel

theorem translated_separate : translated.Separate := ⟨by decide +kernel, by decide +kernel⟩

/-- The name of a sticker in a language. -/
def nameIn (id base name : String) (language : Json) : Record :=
  ⟨"StickerLocale", id, Dict.ofEntries [(FieldName.name, .str name),
    (FieldName.materialId, .str base), (FieldName.locale, language)]⟩

/-- Two stickers, two names of the first one, and one of the second in a list of languages. -/
def translations : Database :=
  ((Database.empty.prepare translated).1.setRows "Sticker"
    (Dict.ofEntries [("s1", ⟨(sticker "s1" "Cat").fields, 0⟩),
      ("s2", ⟨(sticker "s2" "Bird").fields, 0⟩)])).setRows "StickerLocale"
    (Dict.ofEntries [("l1", ⟨(nameIn "l1" "s1" "Katze" (.str "de")).fields, 0⟩),
      ("l2", ⟨(nameIn "l2" "s1" "Chat" (.str "fr")).fields, 0⟩),
      ("l3", ⟨(nameIn "l3" "s2" "Vogel" (.arr [.str "de"])).fields, 0⟩)])

def shelf : Store := .opened translated translations

/-- Stored names are used in one language. -/
def mergerIn (language : String) : Merger := ⟨translated, .arrivalOrder, some language, none⟩

theorem names_laidOver : LaidOver translated names "Sticker" :=
  ⟨by decide +kernel, by decide +kernel, by decide +kernel⟩

end Stickers

/-! ### Names in the configured language -/

/-- One sticker is brought again, and for the other one a place in the order without a name. -/
def refreshed : List ModelGroup :=
  [⟨"Sticker", [Stickers.item (Stickers.sticker "s1" "Cat") 1 false]⟩,
    ⟨"StickerLocale", [Stickers.item ⟨"StickerLocale", "l4",
      Dict.ofEntries [(FieldName.materialId, .str "s2"), (FieldName.sort, .int 7)]⟩ 1 false]⟩]

theorem refreshed_settled {settled : Database}
    (h : ((Stickers.mergerIn "fr").firstPass refreshed Stickers.translated Stickers.translations).map
      Prod.snd = .ok settled) :
    settled.row? "Sticker" "s1" = some ⟨(Stickers.sticker "s1" "Cat").fields, 1⟩
      ∧ (Stickers.mergerIn "fr").chosen? refreshed Stickers.names "Sticker" settled "s1"
        = some (Stickers.nameIn "l2" "s1" "Chat" (.str "fr")) := by
  have hleft : (((Stickers.mergerIn "fr").firstPass refreshed Stickers.translated
      Stickers.translations).map Prod.snd).map (fun db => (db.row? "Sticker" "s1",
        (Stickers.mergerIn "fr").chosen? refreshed Stickers.names "Sticker" db "s1"))
      = .ok (some ⟨(Stickers.sticker "s1" "Cat").fields, 1⟩,
        some (Stickers.nameIn "l2" "s1" "Chat" (.str "fr"))) := by
    rfl
  rw [h] at hleft
  exact Prod.ext_iff.1 (Except.ok.inj hleft)

/-- Rows change only for the sake of live overlays, or of stored ones whose language is the
configured one. -/
def KeepsToLanguage (m : Merger) (groups : List ModelGroup) (settled after : Database) : Prop :=
  ∀ overlay model, LaidOver m.registry overlay model → ∀ language ∈ m.tag? overlay,
    ∀ key, after.row? model key = settled.row? model key
      ∨ ∃ x, x.materialId? = some key ∧ (x ∈ liveRecords groups overlay.name
        ∨ x ∈ Database.shown overlay.name (settled.rowsOf overlay) ∧ x.locale? = some language)

/-- The second sticker is brought again, and the configured language is the text of a list. -/
def broughtBird : List ModelGroup :=
  [⟨"Sticker", [Stickers.item (Stickers.sticker "s2" "Bird") 1 false]⟩]

def mergerInList : Merger := Stickers.mergerIn "[\"de\"]"

/-- No stored name is in the configured language. -/
theorem broughtBird_settled {settled : Database}
    (h : (mergerInList.firstPass broughtBird Stickers.translated Stickers.translations).map
      Prod.snd = .ok settled) :
    settled.row? "Sticker" "s2" = some ⟨(Stickers.sticker "s2" "Bird").fields, 1⟩
      ∧ ∀ x ∈ Database.shown Stickers.names.name (settled.rowsOf Stickers.names),
        x.locale? ≠ some "[\"de\"]" := by
  have hleft : ((mergerInList.firstPass broughtBird Stickers.translated
      Stickers.translations).map Prod.snd).map (fun db => (db.row? "Sticker" "s2",
        (Database.shown Stickers.names.name (db.rowsOf Stickers.names)).map Record.locale?))
      = .ok (some ⟨(Stickers.sticker "s2" "Bird").fields, 1⟩, [some "de", some "fr", none]) := by
    rfl
  rw [h] at hleft
  obtain ⟨hrow, hlocales⟩ := Prod.ext_iff.1 (Except.ok.inj hleft)
  refine ⟨hrow, fun x hx hlocale => ?_⟩
  have hmem : x.locale? ∈ (Database.shown Stickers.names.name
      (settled.rowsOf Stickers.names)).map Record.locale? := List.mem_map_of_mem hx
  rw [show (Database.shown _ (settled.rowsOf Stickers.names)).map Record.locale? = _
    from hlocales, hlocale] at hmem
  revert hmem
  decide

/-- The second sticker in the end. -/
theorem broughtBird_after {stats : MergeStats} {after : Database}
    (h : mergerInList.merge broughtBird Stickers.shelf
      = (.ok stats, .opened Stickers.translated after)) :
    stats.localized = 1
      ∧ after.row? "Sticker" "s2" = some ⟨(Stickers.sticker "s2" "Vogel").fields, 1⟩ := by
  have hstats : (mergerInList.merge broughtBird Stickers.shelf).1.map MergeStats.localized
      = .ok 1 := by
    rfl
  have hleft : ((mergerInList.merge broughtBird Stickers.shelf).2.transact
      fun _ db => .ok (db.row? "Sticker" "s2", db)).1.toOption
        = some (some ⟨(Stickers.sticker "s2" "Vogel").fields, 1⟩) := by
    decide +kernel
  rw [h] at hstats hleft
  exact ⟨Except.ok.inj hstats, Option.some.inj hleft⟩

end Merger

end Replica
