/-
Replica.Proofs.Cycle.Convergence — no update is lost.

A run interleaves edits of a backend with cycles of a replica that started empty
(`Run`). The main statement is `no_lost_update`: after every cycle of a run that commits,
the rows of every plain model are exactly the backend's live entries.

The invariant of a run (`Synced`) is that every entry up to the recorded time has the row it
should have, and no identifier without an entry has a row. Edits keep it because they stamp
entries with times above the recorded one, cycles that fail because they change nothing, and
cycles that commit because their filter admits at least the entries above the recorded time,
each of which arrives once and settles its row.
-/
import Replica.Proofs.Cycle.Atomicity
import Replica.Proofs.Cycle.Backend
import Replica.Proofs.Cycle.MergedRows
import Replica.Proofs.Cycle.Watermark

namespace Replica

/-! ## Plain models -/

/-- A registered model that declares neither cohorts nor locales, takes no part in overlays
and has no configured predicate. -/
structure Plain (e : Engine) (m : ModelSchema) : Prop where
  registered : m ∈ e.registry.models
  grayRelease : m.capabilities.grayRelease = false
  locale : m.capabilities.locale = false
  notOverlay : m.isOverlay = false
  untargeted : Merger.Untargeted e.registry m.name
  noBase : e.config.syncExpressions.get? m.name = none

theorem Plain.name_mem {e : Engine} {m : ModelSchema} (h : Plain e m) :
    m.name ∈ e.registry.modelNames := List.mem_map_of_mem h.registered

theorem Plain.predicate_eq {e : Engine} {m : ModelSchema} (h : Plain e m)
    (inputs : SelectionInputs) :
    (Selection.ofSchema e.config.syncExpressions inputs m).predicate
      = Selection.ofCapabilities m.capabilities .all inputs.lastSync inputs.grayRelease
          inputs.locale := by
  simp [Selection.ofSchema, h.notOverlay, h.noBase]

/-- Of a plain model the entries are asked for that changed after the last sync. -/
theorem Plain.accepts {e : Engine} {m : ModelSchema} (h : Plain e m) {inputs : SelectionInputs}
    (hshort : inputs.lastSync.millis ≤ Timestamp.lastShort) (entry : Entry) (id : String) :
    Filter.accepts (entry.item m.name id).record
        (Selection.ofSchema e.config.syncExpressions inputs m).predicate.toFilter
      = decide (inputs.lastSync.millis < entry.lastChangedAt.millis) := by
  rw [h.predicate_eq]
  exact Selection.accepts_since _ _ _ h.grayRelease h.locale entry.updatedAt hshort entry.short
    entry.positive

/-! ## The items of a model in a fetch -/

namespace Fetch

theorem received_items_model {transport : Transport} {sent : List Request} {page : Page}
    (h : page ∈ received transport sent) : ∀ i ∈ page.items, i.record.model = page.model := by
  obtain ⟨k, -, hpage⟩ := List.mem_flatMap.1 h
  unfold responseTo at hpage
  split at hpage
  · rename_i q raw _ _
    simp only [Option.map_some, Option.getD_some] at hpage
    unfold Response.split at hpage
    split at hpage
    · simp at hpage
    · obtain ⟨c, -, hc⟩ := List.mem_filterMap.1 hpage
      obtain ⟨v, -, rfl⟩ := Option.map_eq_some_iff.1 hc
      intro i hi
      rw [Page.ofJson_model]
      exact Page.ofJson_items_model hi
  · simp at hpage

theorem itemsOf_model {transport : Transport} {sent : List Request} {name : String} :
    ∀ i ∈ itemsOf (received transport sent) name, i.record.model = name := by
  intro i hi
  obtain ⟨page, hpage, hi⟩ := List.mem_flatMap.1 hi
  obtain ⟨hpage, hname⟩ := List.mem_filter.1 hpage
  rw [received_items_model hpage i hi]
  exact of_decide_eq_true hname

/-- Grouping by model and taking one model's items gives that model's items. -/
theorem filter_groups (f : String → List Item) (hf : ∀ name, ∀ i ∈ f name, i.record.model = name)
    {model : String} : ∀ {names : List String}, names.Nodup → model ∈ names →
      (Merger.itemsOf (names.map fun name => ⟨name, f name⟩)).filter
        (fun i => i.record.model = model) = f model
  | name :: rest, hnd, hmem => by
    obtain ⟨hnotin, hrest⟩ := List.nodup_cons.1 hnd
    have hhead : (f name).filter (fun i => i.record.model = model)
        = if name = model then f name else [] := by
      by_cases hname : name = model
      · rw [if_pos hname, List.filter_eq_self]
        intro i hi
        simpa [hname] using hf name i hi
      · rw [if_neg hname, List.filter_eq_nil_iff]
        intro i hi
        simpa [hf name i hi] using hname
    rw [Merger.itemsOf, List.map_cons, List.flatMap_cons, List.filter_append, hhead]
    by_cases hname : name = model
    · subst hname
      have hnone : (Merger.itemsOf (rest.map fun name => ⟨name, f name⟩)).filter
          (fun i => i.record.model = name) = [] := by
        rw [List.filter_eq_nil_iff]
        intro i hi hmodel
        obtain ⟨g, hg, hi⟩ := List.mem_flatMap.1 hi
        obtain ⟨other, hother, rfl⟩ := List.mem_map.1 hg
        have hsame : other = name := (hf other i hi).symm.trans (of_decide_eq_true hmodel)
        exact hnotin (hsame ▸ hother)
      rw [if_pos rfl]
      exact (congrArg (f name ++ ·) hnone).trans (List.append_nil _)
    · rw [if_neg hname, List.nil_append]
      exact filter_groups f hf hrest (List.mem_of_ne_of_mem (Ne.symm hname) hmem)

end Fetch

/-! ## One cycle that commits -/

/-- The rows of a model once what was selected of it has been settled: those of the
selected entries, and the old ones everywhere else. -/
theorem settled_rows {b : Backend} {model : String} {filter : Json} {items : List Item}
    (hperm : items.Perm (b.selected model filter)) {m : Merger} (hhook : m.hook = none)
    (rows : Dict Row) (key : String) :
    (items.foldl m.settle rows).get? key
      = match ((b.entries model).get? key).filter
            (fun e => Filter.accepts (e.item model key).record filter) with
        | some e => e.row?
        | none => rows.get? key := by
  have hkey := hperm.filter (fun i => i.record.id = key)
  rw [Backend.selected_id] at hkey
  rw [Merger.get?_foldl_settle]
  cases hentry : ((b.entries model).get? key).filter
      (fun e => Filter.accepts (e.item model key).record filter) with
  | none =>
    rw [hentry] at hkey
    rw [List.perm_nil.1 hkey]
    rfl
  | some e =>
    rw [hentry] at hkey
    rw [List.perm_singleton.1 hkey]
    simp [Merger.rowOf, hhook, Item.isTombstone, Entry.item, Entry.row?]

/-- The rows of every plain model are exactly the backend's live entries. -/
def Mirrors (e : Engine) (b : Backend) (db : Database) : Prop :=
  ∀ m, Plain e m → ∃ rows, db.rows m.name = .ok rows
    ∧ ∀ id, rows.get? id = ((b.entries m.name).get? id).bind Entry.row?

/-- Every entry up to a time has the row it should have, and nothing else has one. -/
structure RowsUpTo (b : Backend) (model : String) (t : Timestamp) (rows : Dict Row) : Prop where
  present : ∀ id entry, (b.entries model).get? id = some entry →
    entry.lastChangedAt.millis ≤ t.millis → rows.get? id = entry.row?
  absent : ∀ id, (b.entries model).get? id = none → rows.get? id = none

theorem Engine.inputs_lastSync_le (e : Engine) (now : Timestamp) (w : Watermark) :
    (e.inputs now w).lastSync.millis ≤ w.lastSync.millis := by
  simp only [inputs]
  split
  · exact Nat.zero_le _
  · exact Nat.le_refl _

/-- A cycle that commits over rows that are right up to the recorded time makes them right. -/
theorem Engine.Stages.mirrors {e : Engine} (hpolicy : e.config.conflictPolicy = .arrivalOrder)
    (hhook : e.hook = none) (hr : e.registry.Separate) {b : Backend} {now t : Timestamp}
    {transport : Transport} (hhonest : ∀ m, Plain e m → Honest b m.name transport)
    {db : Database} {settings : Settings} {cycle : CycleRun Store Settings}
    (h : e.Stages now transport (.opened e.registry db) settings cycle)
    (hlast : KeyStore.lastSync settings = .ok t) (hshort : t.millis ≤ Timestamp.lastShort)
    (hrows : ∀ m, Plain e m → ∃ rows, db.rows m.name = .ok rows ∧ RowsUpTo b m.name t rows)
    {outcome : SyncOutcome} (hok : cycle.result = .ok outcome) :
    ∃ db', cycle.store = .opened e.registry db' ∧ Mirrors e b db' := by
  cases h with
  | @committed w sent fetched stats store' settings' _ hw hfetch hmerge _ =>
    have hsame : w.lastSync = t :=
      Except.ok.inj ((Settings.watermark_eq_ok.1 hw).1.symm.trans hlast)
    obtain ⟨hgroups, -⟩ := Fetch.all_ok hfetch
    obtain ⟨db', hstore, hmerged⟩ := Merger.merge_rows (m := e.merger) hpolicy
      (Merger.keepsKeys_none hhook) hr hmerge
    refine ⟨db', hstore, fun m hm => ?_⟩
    obtain ⟨rows, hdb, hupto⟩ := hrows m hm
    obtain ⟨chunks, hlinked, hdelivers, hperm⟩ := hhonest m hm
      (Selection.ofSchema e.config.syncExpressions (e.inputs now w) m).predicate.toFilter
    have hchain : Fetch.ChainOf m.name chunks := fun chunk hchunk i hi =>
      Backend.selected_safe (hperm.subset (List.mem_flatMap.2 ⟨chunk, hchunk, hi⟩))
    -- The fetch received what the backend selected, in some order.
    rw [← Fetch.all_delivered hfetch hm.registered hdelivers hlinked hchain] at hperm
    have hitems : (Merger.itemsOf fetched.groups).filter (fun i => i.record.model = m.name)
        = Fetch.itemsOf (Fetch.received transport sent) m.name := by
      rw [hgroups]
      exact Fetch.filter_groups (Fetch.itemsOf (Fetch.received transport sent))
        (fun _ => Fetch.itemsOf_model) e.registry.distinct hm.name_mem
    refine ⟨_, hmerged m.name hm.name_mem hm.untargeted rows hdb, fun id => ?_⟩
    rw [hitems, settled_rows hperm hhook]
    cases hentry : (b.entries m.name).get? id with
    | none => simpa using hupto.absent id hentry
    | some entry =>
      have hbound : (e.inputs now w).lastSync.millis ≤ t.millis :=
        hsame ▸ e.inputs_lastSync_le now w
      have haccepts := hm.accepts (Nat.le_trans hbound hshort) entry id
      -- An entry that is not asked for was already right.
      by_cases hlater : (e.inputs now w).lastSync.millis < entry.lastChangedAt.millis
      · simp [Option.filter, haccepts, hlater]
      · have hold := hupto.present id entry hentry (Nat.le_trans (Nat.not_lt.1 hlater) hbound)
        simpa [Option.filter, haccepts, hlater] using hold
  | _ => simp at hok

/-! ## Runs -/

/-- A backend and a replica of it. -/
structure World where
  backend : Backend
  replica : Replicator Store Settings

/-- The worlds that edits of the backend and cycles of the replica lead to. -/
inductive Run (e : Engine) : World → Prop
  /-- The store was opened over nothing, and nothing was ever synced. -/
  | start {b : Backend} {store : Store} {left : Database} {settings : Settings}
      (hopen : Store.openOn e.registry .empty = (.ok store, left))
      (hsettings : settings.acceptsAll = true) (hzero : KeyStore.lastSync settings = .ok .zero) :
      Run e ⟨b, .start e store settings⟩
  /-- An edit puts a live entry or a tombstone under an identifier, stamped with a time
  above the recorded one. -/
  | edit {w : World} (h : Run e w) {model id : String} {entry : Entry} (hid : id ≠ "")
      (hlater : ∀ t, KeyStore.lastSync w.replica.settings = .ok t →
        t.millis < entry.lastChangedAt.millis) :
      Run e ⟨w.backend.put model id entry hid, w.replica⟩
  /-- A cycle, whether it commits or fails. -/
  | cycle {w : World} (h : Run e w) {now : Timestamp} {transport : Transport}
      (hnow : now.millis ≤ Timestamp.lastShort)
      (hhonest : ∀ m, Plain e m → Honest w.backend m.name transport) :
      Run e ⟨w.backend, (w.replica.sync now transport).2⟩

/-- The invariant of a run. -/
structure Synced (e : Engine) (w : World) (t : Timestamp) (db : Database) : Prop where
  engine : w.replica.engine = e
  settings : w.replica.settings.acceptsAll = true
  lastSync : KeyStore.lastSync w.replica.settings = .ok t
  short : t.millis ≤ Timestamp.lastShort
  store : w.replica.store = .opened e.registry db
  rows : ∀ m, Plain e m → ∃ rows, db.rows m.name = .ok rows ∧ RowsUpTo w.backend m.name t rows

variable {e : Engine}

theorem synced_start (hr : e.registry.Separate) {b : Backend} {store : Store} {left : Database}
    {settings : Settings} (hopen : Store.openOn e.registry .empty = (.ok store, left))
    (hsettings : settings.acceptsAll = true) (hzero : KeyStore.lastSync settings = .ok .zero) :
    ∃ db, Synced e ⟨b, .start e store settings⟩ .zero db := by
  obtain ⟨db, hstore, hempty⟩ := Store.rows_openOn hr hopen
  refine ⟨db, rfl, hsettings, hzero, Nat.zero_le _, hstore, fun m hm => ?_⟩
  refine ⟨_, hempty m.name hm.name_mem, fun id entry _ hle => ?_, fun id _ => rfl⟩
  exact absurd entry.positive (Nat.not_lt.2 hle)

theorem Synced.edit {w : World} {t : Timestamp} {db : Database} (h : Synced e w t db)
    {model id : String} {entry : Entry} (hid : id ≠ "")
    (hlater : t.millis < entry.lastChangedAt.millis) :
    Synced e ⟨w.backend.put model id entry hid, w.replica⟩ t db where
  engine := h.engine
  settings := h.settings
  lastSync := h.lastSync
  short := h.short
  store := h.store
  rows := by
    intro m hm
    obtain ⟨rows, hrows, hupto⟩ := h.rows m hm
    refine ⟨rows, hrows, fun key found hfound hle => ?_, fun key hnone => ?_⟩
    · rw [Backend.get?_put] at hfound
      split at hfound
      · cases hfound
        exact absurd hlater (Nat.not_lt.2 hle)
      · exact hupto.present key found hfound hle
    · rw [Backend.get?_put] at hnone
      split at hnone
      · simp at hnone
      · exact hupto.absent key hnone

/-- A cycle that commits makes the rows right. -/
theorem Synced.mirrors (hpolicy : e.config.conflictPolicy = .arrivalOrder) (hhook : e.hook = none)
    (hr : e.registry.Separate) {w : World} {t : Timestamp} {db : Database} (h : Synced e w t db)
    {now : Timestamp} {transport : Transport}
    (hhonest : ∀ m, Plain e m → Honest w.backend m.name transport) {outcome : SyncOutcome}
    (hok : (w.replica.sync now transport).1.result = .ok outcome) :
    ∃ db', (w.replica.sync now transport).2.store = .opened e.registry db'
      ∧ Mirrors e w.backend db' := by
  have hstages := w.replica.engine.run_stages now transport w.replica.store w.replica.settings
  rw [h.engine, h.store] at hstages
  have hcycle : w.replica.engine.run now transport w.replica.store w.replica.settings
      = e.run now transport (.opened e.registry db) w.replica.settings := by
    rw [h.engine, h.store]
  obtain ⟨db', hstore, hmirrors⟩ := hstages.mirrors hpolicy hhook hr hhonest h.lastSync h.short
    h.rows ((congrArg CycleRun.result hcycle).symm.trans hok)
  exact ⟨db', (congrArg CycleRun.store hcycle).trans hstore, hmirrors⟩

theorem Synced.cycle (hpolicy : e.config.conflictPolicy = .arrivalOrder) (hhook : e.hook = none)
    (hr : e.registry.Separate) {w : World} {t : Timestamp} {db : Database} (h : Synced e w t db)
    {now : Timestamp} {transport : Transport} (hnow : now.millis ≤ Timestamp.lastShort)
    (hhonest : ∀ m, Plain e m → Honest w.backend m.name transport) :
    ∃ t' db', Synced e ⟨w.backend, (w.replica.sync now transport).2⟩ t' db' := by
  have hstages := w.replica.engine.run_stages now transport w.replica.store w.replica.settings
  cases hresult : (w.replica.engine.run now transport w.replica.store w.replica.settings).result with
  | error err =>
    -- Nothing changed: the same time is on record, and the rows are still right up to it.
    obtain ⟨hstore, hsettings⟩ := Replicator.run_failed h.settings hstages hresult
    have hsame : (w.replica.sync now transport).2.settings = w.replica.settings := hsettings
    refine ⟨t, db, h.engine, ?_, ?_, h.short, ?_, h.rows⟩
    · rw [hsame]
      exact h.settings
    · rw [hsame]
      exact h.lastSync
    · exact Eq.trans hstore h.store
  | ok outcome =>
    -- All rows are right, so they are right up to whatever time is recorded.
    obtain ⟨db', hstore, hmirrors⟩ := h.mirrors hpolicy hhook hr hhonest hresult
    have hrecorded := hstages.recorded hresult
    have hmax : now.millis ≤ Timestamp.maxMillis := Nat.le_trans hnow (by decide)
    refine ⟨_, db', h.engine, ?_, w.replica.lastSync_committed hmax h.lastSync hresult, ?_, hstore, ?_⟩
    · have haccepts := congrArg Settings.acceptsAll hrecorded
      rw [Settings.acceptsAll_withValues, h.settings] at haccepts
      exact haccepts
    · exact Nat.le_trans (Engine.advance_le ..) hnow
    · intro m hm
      obtain ⟨rows, hrows, hall⟩ := hmirrors m hm
      refine ⟨rows, hrows, fun id entry hentry _ => ?_, fun id hnone => ?_⟩
      · rw [hall id, hentry]
        rfl
      · rw [hall id, hnone]
        rfl

theorem Run.synced (hpolicy : e.config.conflictPolicy = .arrivalOrder) (hhook : e.hook = none)
    (hr : e.registry.Separate) {w : World} (h : Run e w) : ∃ t db, Synced e w t db := by
  induction h with
  | start hopen hsettings hzero => exact ⟨_, synced_start hr hopen hsettings hzero⟩
  | edit _ hid hlater ih =>
    obtain ⟨t, db, hsynced⟩ := ih
    exact ⟨t, db, hsynced.edit hid (hlater t hsynced.lastSync)⟩
  | cycle _ hnow hhonest ih =>
    obtain ⟨t, db, hsynced⟩ := ih
    exact hsynced.cycle hpolicy hhook hr hnow hhonest

/-- **No lost update.** After every cycle of a run that commits, the rows of every plain
model are exactly the backend's live entries. -/
theorem no_lost_update (hpolicy : e.config.conflictPolicy = .arrivalOrder) (hhook : e.hook = none)
    (hr : e.registry.Separate) {w : World} (h : Run e w) {now : Timestamp} {transport : Transport}
    (hhonest : ∀ m, Plain e m → Honest w.backend m.name transport) {outcome : SyncOutcome}
    (hok : (w.replica.sync now transport).1.result = .ok outcome) :
    ∃ db, (w.replica.sync now transport).2.store = .opened e.registry db
      ∧ Mirrors e w.backend db := by
  obtain ⟨t, db, hsynced⟩ := h.synced hpolicy hhook hr
  exact hsynced.mirrors hpolicy hhook hr hhonest hok

/-! ### A font that is removed between two cycles -/

/-- An entry of which only the time of the last change is known. -/
def Entry.stamped (time : Timestamp) (deleted : Bool) (hpos : 0 < time.millis)
    (hshort : time.millis ≤ Timestamp.lastShort) : Entry where
  fields := (Dict.empty : Fields).insert FieldName.updatedAt (.str time.text)
  version := 1
  lastChangedAt := time
  deleted := deleted
  proper := by
    intro key hkey
    have hne : FieldName.updatedAt ≠ key := by
      rintro rfl
      revert hkey
      decide +kernel
    simp [hne]
  updatedAt := by simp
  positive := hpos
  short := hshort
  low := by decide
  high := by decide

namespace Backend

/-- A backend with two fonts. -/
def twoFonts : Backend :=
  ((⟨fun _ => Dict.empty, by simp⟩ : Backend).put "Font" "f1"
    (.stamped ⟨700⟩ false (by decide) (by decide)) (by decide)).put "Font" "f2"
    (.stamped ⟨900⟩ false (by decide) (by decide)) (by decide)

/-- The backend once the second font is gone. -/
def oneFont : Backend :=
  twoFonts.put "Font" "f2" (.stamped ⟨1500⟩ true (by decide) (by decide)) (by decide)

end Backend

namespace Replicator

/-- The replica once it has heard of both fonts. -/
def hearsTwoFonts : Replicator Store Settings :=
  (neverSynced.sync ⟨1000⟩ Backend.twoFonts.serve).2

theorem separate_fontsAndStickers : Fetch.fontsAndStickers.Separate :=
  ⟨by decide +kernel, by decide +kernel⟩

theorem run_oneFont : Run neverSynced.engine ⟨Backend.oneFont, hearsTwoFonts⟩ := by
  have hstart : Run neverSynced.engine ⟨Backend.twoFonts, neverSynced⟩ :=
    have hopen : Store.openOn Fetch.fontsAndStickers .empty
        = (.ok neverSynced.store, (Database.empty.prepare Fetch.fontsAndStickers).1) := rfl
    .start hopen rfl rfl
  have hheard : Run neverSynced.engine ⟨Backend.twoFonts, hearsTwoFonts⟩ :=
    hstart.cycle (by decide) fun m _ => Backend.twoFonts.serve_honest m.name
  refine hheard.edit (by decide) fun t ht => ?_
  have htime : (KeyStore.lastSync hearsTwoFonts.settings).toOption = some ⟨900⟩ := by
    decide +kernel
  rw [show KeyStore.lastSync hearsTwoFonts.settings = .ok t from ht] at htime
  cases htime
  decide

theorem plain_font : Plain neverSynced.engine (.named "Font") where
  registered := by decide
  grayRelease := by decide +kernel
  locale := by decide +kernel
  notOverlay := by decide +kernel
  untargeted := by
    intro overlay hmem
    revert overlay
    decide +kernel
  noBase := rfl

theorem removedFont_mirrored :
    neverSynced.engine.config.conflictPolicy = .arrivalOrder
      ∧ neverSynced.engine.hook = none
      ∧ Fetch.fontsAndStickers.Separate
      ∧ Run neverSynced.engine ⟨Backend.oneFont, hearsTwoFonts⟩
      ∧ (∀ m, Plain neverSynced.engine m → Honest Backend.oneFont m.name Backend.oneFont.serve)
      ∧ (hearsTwoFonts.sync ⟨2000⟩ Backend.oneFont.serve).1.result.toBool = true
      ∧ ∃ db rows, (hearsTwoFonts.sync ⟨2000⟩ Backend.oneFont.serve).2.store
            = .opened Fetch.fontsAndStickers db
          ∧ db.rows "Font" = .ok rows
          ∧ (rows.get? "f1").isSome = true
          ∧ rows.get? "f2" = none := by
  have hhonest : ∀ m, Plain neverSynced.engine m →
      Honest Backend.oneFont m.name Backend.oneFont.serve :=
    fun m _ => Backend.oneFont.serve_honest m.name
  have hcommits : (hearsTwoFonts.sync ⟨2000⟩ Backend.oneFont.serve).1.result.toBool = true := by
    decide +kernel
  refine ⟨rfl, rfl, separate_fontsAndStickers, run_oneFont, hhonest, hcommits, ?_⟩
  cases hresult : (hearsTwoFonts.sync ⟨2000⟩ Backend.oneFont.serve).1.result with
  | error err =>
    rw [hresult] at hcommits
    cases hcommits
  | ok outcome =>
    obtain ⟨db, hstore, hmirrors⟩ := no_lost_update rfl rfl separate_fontsAndStickers run_oneFont
      hhonest hresult
    obtain ⟨rows, hrows, hall⟩ := hmirrors _ plain_font
    refine ⟨db, rows, hstore, hrows, ?_, ?_⟩
    · rw [hall "f1"]
      decide +kernel
    · rw [hall "f2"]
      decide +kernel

end Replicator

end Replica
