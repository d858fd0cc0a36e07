/-
Replica.Proofs.Cycle.MergedRows — which rows a merge leaves.

A merge that succeeds goes from the old content to a new one by way of the content after its
first pass (`Merged`): there each row is the old one taken through the items of its
identifier, and from there on only display fields change. Whether it succeeds depends on
nothing but the models of its groups and items (`merge_of_writable`).

For a model that no registered overlay is laid over the second pass does nothing. In the
order of arrival its rows are then the old ones with its items settled one after the other
(`merge_rows`), and the last item of an identifier decides its row (`get?_foldl_settle`).
-/
import Replica.Proofs.Cycle.SecondPass

namespace Replica.Merger

variable {m : Merger} {r : Registry} {groups : List ModelGroup} {db settled after : Database}
  {stats : MergeStats} {model : String}

/-! ## Both passes -/

/-- A merge over a content `db` has left the content `settled` after its first pass and
`after` in the end. -/
structure Merged (m : Merger) (r : Registry) (groups : List ModelGroup)
    (db settled after : Database) (stats : MergeStats) : Prop where
  known : unknownGroup? m.registry groups = none
  firstPass : ∃ first, m.firstPass groups r db = .ok (first, settled)
    ∧ stats = { first with localized := stats.localized }
  settledKeeps : Database.Keeps r db settled
  settledRow : ∀ model ∈ r.modelNames, ∀ key, settled.row? model key
    = ((itemsOf groups).filter (Item.isFor model key)).foldl m.rowAfter (db.row? model key)
  keeps : Database.Keeps r settled after
  row : ∀ model ∈ r.modelNames, ∀ key, after.row? model key
    = (settled.row? model key).map
        (·.patched (m.labels (.opened r settled) (jobs m.registry groups) model key))

/-- A merge that succeeds is a first pass that took effect, and a second pass. -/
theorem merge_ok {σ : Type} [LocalStore σ] {s s' : σ} (h : m.merge groups s = (.ok stats, s')) :
    unknownGroup? m.registry groups = none
      ∧ ∃ first s₁, LocalStore.transact (m.firstPass groups) s = (.ok first, s₁)
        ∧ stats = { first with localized := stats.localized }
        ∧ m.secondPass (jobs m.registry groups) s₁ = (stats.localized, s') := by
  rw [merge] at h
  split at h
  · simp at h
  · rename_i hknown
    cases hfirst : LocalStore.transact (m.firstPass groups) s with
    | mk answer s₁ =>
      rw [hfirst] at h
      cases answer with
      | error e => simp at h
      | ok first =>
        obtain ⟨hstats, hstore⟩ := Prod.ext_iff.1 h
        rw [← Except.ok.inj hstats]
        exact ⟨hknown, first, s₁, rfl, rfl, Prod.ext rfl hstore⟩

theorem merged_of_ok (hkeeps : m.KeepsKeys) (hr : r.Separate) {s s' : Store}
    (h : m.merge groups s = (.ok stats, s')) (hs : s.registry = r) :
    ∃ db settled after, s = .opened r db ∧ s' = .opened r after
      ∧ Merged m r groups db settled after stats := by
  obtain ⟨hknown, first, s₁, hfirst, hstats, hpass⟩ := merge_ok h
  obtain ⟨r', db, settled, rfl, hwork, rfl⟩ := Store.transact_ok hfirst
  cases hs
  obtain ⟨after, hsecond, hkeep, hrow⟩ :=
    m.secondPass_row hr (targets_distinct m.registry groups) settled
  have hs' : s' = .opened r' after := (congrArg Prod.snd hpass).symm.trans hsecond
  obtain ⟨hsettledKeeps, hsettledRow⟩ := applyItems_row hkeeps hr hwork
  exact ⟨db, settled, after, rfl, hs', hknown, ⟨first, hwork, hstats⟩,
    hsettledKeeps, hsettledRow, hkeep, hrow⟩

/-- A merge succeeds when every group's model is registered and every item's model has a
table. -/
theorem merge_of_writable (hkeeps : m.KeepsKeys) (hr : r.Separate)
    (hknown : unknownGroup? m.registry groups = none)
    (h : ∀ i ∈ itemsOf groups, Database.Writable r db i.record.model) :
    ∃ stats s, m.merge groups (Store.opened r db) = (.ok stats, s) := by
  obtain ⟨first, settled, hfirst⟩ := (applyItems_ok_iff hkeeps hr _ noStats db).2 h
  simp only [merge, hknown, LocalStore.transact, Store.transact, firstPass, hfirst]
  exact ⟨_, _, rfl⟩

/-- An answer that is no failure. -/
theorem ok_of_toBool {ε α σ : Type} (answer : Except ε α × σ) (h : answer.1.toBool = true) :
    ∃ a s, answer = (.ok a, s) := by
  obtain ⟨e | a, s⟩ := answer
  · cases h
  · exact ⟨a, s, rfl⟩

/-- Every item's model had a table. -/
theorem Merged.writable (hkeeps : m.KeepsKeys) (hr : r.Separate)
    (h : Merged m r groups db settled after stats) :
    ∀ i ∈ itemsOf groups, Database.Writable r db i.record.model := by
  obtain ⟨first, hfirst, -⟩ := h.firstPass
  exact (applyItems_ok_iff hkeeps hr _ noStats db).1 ⟨first, settled, hfirst⟩

/-! ## Models that no overlay is laid over -/

/-- Rows after an item. -/
def settle (m : Merger) (rows : Dict Row) (i : Item) : Dict Row :=
  match m.rowOf i with
  | some row => rows.insert i.record.id row
  | none => rows.erase i.record.id

theorem get?_settle (m : Merger) (rows : Dict Row) (i : Item) (key : String) :
    (m.settle rows i).get? key = if i.record.id = key then m.rowOf i else rows.get? key := by
  rw [settle]
  cases m.rowOf i with
  | none => exact Dict.get?_erase ..
  | some row => exact Dict.get?_insert ..

/-- The last item of an identifier decides its row; without one the row stays. -/
theorem get?_foldl_settle (m : Merger) (key : String) : ∀ (items : List Item) (rows : Dict Row),
    (items.foldl m.settle rows).get? key
      = (items.filter (fun i => i.record.id = key)).foldl (fun _ i => m.rowOf i) (rows.get? key)
  | [], _ => rfl
  | i :: rest, rows => by
    rw [List.foldl_cons, get?_foldl_settle m key rest, get?_settle, List.filter_cons]
    by_cases h : i.record.id = key <;> simp [h]

/-- No registered overlay is laid over a model. -/
def Untargeted (r : Registry) (model : String) : Prop :=
  ∀ overlay ∈ r.models, (r.overlayTarget? overlay.name).map (·.name) ≠ some model

/-- There is no job for a model that is no base. -/
theorem labels_of_not_isBase {s : Store} (h : ¬ IsBase m.registry model) (key : String) :
    m.labels s (jobs m.registry groups) model key = [] := by
  have hnone : (jobs m.registry groups).find? (·.target = model) = none := by
    refine List.find?_eq_none.2 fun job hjob htarget => h ?_
    rw [← of_decide_eq_true htarget]
    exact isBase_of_job hjob
  rw [labels, hnone]
  rfl

theorem Untargeted.not_isBase (h : Untargeted r model) : ¬ IsBase r model :=
  fun ⟨overlay, hmem, _, htarget⟩ => h overlay hmem htarget

/-- **The rows of a merge.** A merge that succeeds settles the items of every model that no
registered overlay is laid over, in order. -/
theorem merge_rows (hpolicy : m.policy = .arrivalOrder) (hkeeps : m.KeepsKeys)
    (hr : m.registry.Separate) {s : Store}
    (h : m.merge groups (.opened m.registry db) = (.ok stats, s)) :
    ∃ db', s = .opened m.registry db' ∧ ∀ model ∈ m.registry.modelNames,
      Untargeted m.registry model → ∀ rows, db.rows model = .ok rows →
        db'.rows model = .ok (((itemsOf groups).filter (fun i => i.record.model = model)).foldl
          m.settle rows) := by
  obtain ⟨_, settled, after, hs, rfl, hmerged⟩ := merged_of_ok hkeeps hr h rfl
  cases hs
  refine ⟨after, rfl, fun model hmodel hfree rows hrows => ?_⟩
  obtain ⟨-, rows', hrows'⟩ := ((hmerged.settledKeeps.trans hmerged.keeps).writable hr).2
    ⟨hmodel, rows, hrows⟩
  rw [hrows']
  refine congrArg Except.ok (Dict.ext_get? fun key => ?_)
  have harrival : m.rowAfter = fun _ i => m.rowOf i :=
    funext₂ fun row i => rowAfter_arrivalOrder hpolicy row i
  calc rows'.get? key
      = after.row? model key := (Database.row?_of_rows hrows' key).symm
    _ = settled.row? model key := by
        rw [hmerged.row model hmodel, labels_of_not_isBase hfree.not_isBase]
        simp
    _ = ((itemsOf groups).filter (Item.isFor model key)).foldl (fun _ i => m.rowOf i)
          (rows.get? key) := by
        rw [hmerged.settledRow model hmodel, harrival, Database.row?_of_rows hrows]
    _ = _ := by
        rw [get?_foldl_settle, List.filter_filter]
        congr 2
        funext i
        simp [Item.isFor, Bool.and_comm]

end Replica.Merger

/-! ## Stickers with names in other languages -/

namespace Replica.Merger.Stickers

/-- Stickers, and a model of their names in other languages. -/
def registry : Registry where
  version := "v1"
  models :=
    [(ModelSchema.named "Sticker").declare FieldName.name .string,
      ((ModelSchema.named "StickerLocale").declare FieldName.name .string).declare
        FieldName.materialId .string]
  words := by decide +kernel
  distinct := by decide +kernel

theorem separate : registry.Separate := ⟨by decide +kernel, by decide +kernel⟩

def sticker (id name : String) : Record :=
  ⟨"Sticker", id, Dict.ofEntries [(FieldName.name, .str name)]⟩

/-- The name of a sticker in another language. -/
def overlay (id base name : String) : Record :=
  ⟨"StickerLocale", id,
    Dict.ofEntries [(FieldName.name, .str name), (FieldName.materialId, .str base)]⟩

def item (x : Record) (version : Int) (deleted : Bool) : Item := ⟨x, version, ⟨100⟩, deleted⟩

/-- Two stickers without names in other languages. -/
def content : Database :=
  ((Database.empty.prepare registry).1.setRows "Sticker"
    (Dict.ofEntries [("s1", ⟨(sticker "s1" "Cat").fields, 0⟩),
      ("s2", ⟨(sticker "s2" "Bird").fields, 0⟩)]))

def store : Store := .opened registry content

/-- The later arrival counts, and overlays of every locale are applied. -/
def merger : Merger := ⟨registry, .arrivalOrder, none, none⟩

/-- Older versions are passed over. -/
def checking : Merger := { merger with policy := .versionChecked }

/-! ### A sticker of a small scale -/

/-- A number whose text is read as the next greater one, and that one's again. -/
def smallScale : Double := ⟨false, 5210573743476871, -123⟩

/-- A sticker of that scale. -/
def scaledSticker : Record :=
  ⟨"Sticker", "s1", Dict.ofEntries [(FieldName.name, .str "Cat"), ("scale", .real smallScale)]⟩

/-- The sticker in a store. -/
def scaledStore : Store :=
  .opened registry (content.setRows "Sticker" (Dict.ofEntries [("s1", ⟨scaledSticker.fields, 0⟩)]))

/-- Its German name. -/
def germanName : List ModelGroup := [⟨"StickerLocale", [item (overlay "l1" "s1" "Katze") 1 false]⟩]

/-- The version of the sticker that is stored. -/
def versionIn (s : Store) : Option Int :=
  (s.transact fun _ db =>
    .ok ((db.row? "Sticker" "s1").map Row.version, db)).1.toOption.join

/-- The scale of the sticker that is stored. -/
def scaleIn (s : Store) : Option Json :=
  (s.transact fun _ db =>
    .ok ((db.row? "Sticker" "s1").bind (·.fields.get? "scale"), db)).1.toOption.join

end Replica.Merger.Stickers
