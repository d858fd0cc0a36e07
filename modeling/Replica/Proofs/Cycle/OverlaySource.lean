/-
Replica.Proofs.Cycle.OverlaySource — which overlay a row has its display fields from.

The main statement is `overlay_source`. The second pass copies the display fields of a row
from an overlay that points at it, and this overlay is a row of its own model after the first
pass, read from its text, or it is the first live record of its identifier that the merge
brought. The first pass keeps the last item of an identifier and not the first, so such a
record need not have a row: a later tombstone may have removed it, a later item may have
replaced it, or the stored one may be newer. Only when one of its items decides its row
(`Prevails`) it is a row as well.

`retractedName_copied` is such a merge: the overlay that it copies is nowhere in the store.
-/
import Replica.Proofs.Cycle.MergedRows

namespace Replica

/-- A record is a row of its model. -/
def Database.Holds (db : Database) (x : Record) : Prop :=
  (db.row? x.model x.id).map Row.fields = some x.fields

namespace Merger

variable {m : Merger} {r : Registry} {groups : List ModelGroup}
  {db settled after : Database} {stats : MergeStats} {model key : String} {x : Record}

/-- An item decides the row of its record: it is the last of its identifier, and it is not
passed over. -/
def Prevails (m : Merger) (groups : List ModelGroup) (db : Database) (i : Item) : Prop :=
  ∃ earlier, (itemsOf groups).filter (Item.isFor i.record.model i.record.id) = earlier ++ [i]
    ∧ m.passesOver (earlier.foldl m.rowAfter (db.row? i.record.model i.record.id)) i = false

/-- A live item that decides its row has its record in the store. -/
theorem Merged.holds_of_prevails (hhook : m.hook = none) (hr : r.Separate)
    (h : Merged m r groups db settled after stats) {i : Item} (hlive : i.isTombstone = false)
    (hprevails : m.Prevails groups db i) : settled.Holds i.record := by
  obtain ⟨earlier, hitems, hkept⟩ := hprevails
  have hmem : i ∈ itemsOf groups := by
    have hlast : i ∈ earlier ++ [i] := by simp
    rw [← hitems] at hlast
    exact (List.mem_filter.1 hlast).1
  have hmodel := (h.writable (keepsKeys_none hhook) hr i hmem).1
  rw [Database.Holds, h.settledRow _ hmodel, hitems, List.foldl_append, List.foldl_cons,
    List.foldl_nil, rowAfter_of_not_passedOver hkept]
  simp [rowOf, hlive, hhook]

/-- Where an overlay was found that the second pass copies from. -/
inductive Found (m : Merger) (groups : List ModelGroup) (db settled : Database)
    (overlay : String) (x : Record) : Prop
  /-- It is read from a row of the overlay model once the first pass has taken effect. -/
  | stored (hmodel : x.model = overlay) (hshows : settled.Shows x)
  /-- It is the first live record of its identifier in the merge. It is a row as well, unless
  its items are all superseded, retracted or stale. -/
  | fresh (hfirst : (liveRecords groups overlay).find? (·.id = x.id) = some x)
      (hholds : ∀ i, i.record = x → i.isTombstone = false → m.Prevails groups db i →
        settled.Holds x)

theorem Merged.found (hhook : m.hook = none) (hr : r.Separate)
    (h : Merged m r groups db settled after stats) {job : OverlayJob}
    (hjob : job ∈ jobs m.registry groups)
    (hx : (m.candidates (.opened r settled) job).find? (·.id = x.id) = some x) :
    Found m groups db settled job.overlay x := by
  rw [candidates, List.find?_append] at hx
  rcases Option.or_eq_some_iff.1 hx with hfresh | ⟨-, hstored⟩
  · obtain ⟨overlay, -, hof⟩ := List.mem_filterMap.1 hjob
    obtain ⟨target, -, -, rfl⟩ := jobOf?_eq_some hof
    refine .fresh hfresh fun i hi hlive hprevails => ?_
    rw [← hi]
    exact h.holds_of_prevails hhook hr hlive hprevails
  · obtain ⟨hmodel, hshows⟩ := row_of_storedOverlay (List.mem_of_find?_eq_some hstored)
    exact .stored hmodel hshows

/-- An overlay that declares whose it is and is laid over a model. -/
def LaidOver (r : Registry) (overlay : ModelSchema) (model : String) : Prop :=
  overlay ∈ r.models ∧ overlay.capabilities.materialId = true
    ∧ (r.overlayTarget? overlay.name).map (·.name) = some model

/-- **The source of display fields.** Whenever the second pass writes to a row, it sets the
display fields of an overlay that points at the row, and that it found in the store or among
the live items. -/
theorem overlay_source (hhook : m.hook = none) (hr : m.registry.Separate) {s s' : Store}
    (hs : s.registry = m.registry) (h : m.merge groups s = (.ok stats, s')) :
    ∃ db settled after, s = .opened m.registry db ∧ s' = .opened m.registry after
      ∧ (m.firstPass groups m.registry db).map Prod.snd = .ok settled
      ∧ ∀ model ∈ m.registry.modelNames, ∀ key,
        after.row? model key = settled.row? model key
          ∨ ∃ overlay x, LaidOver m.registry overlay model
            ∧ Found m groups db settled overlay.name x ∧ x.materialId? = some key
            ∧ after.row? model key = (settled.row? model key).map (·.patched (patchOf x)) := by
  obtain ⟨db, settled, after, rfl, rfl, hmerged⟩ := merged_of_ok (keepsKeys_none hhook) hr h hs
  obtain ⟨first, hfirst, -⟩ := hmerged.firstPass
  refine ⟨db, settled, after, rfl, rfl, congrArg (Except.map Prod.snd) hfirst,
    fun model hmodel key => ?_⟩
  have hrow := hmerged.row model hmodel key
  unfold labels at hrow
  cases hfind : (jobs m.registry groups).find? (·.target = model) with
  | none =>
    refine .inl (hrow.trans ?_)
    simp [hfind]
  | some job =>
    have hjob := List.mem_of_find?_eq_some hfind
    have htarget : job.target = model := by simpa using List.find?_some hfind
    rw [hfind, Option.elim_some] at hrow
    rcases labelsOf_cases (m.candidates (.opened m.registry settled) job) key with
      hnone | ⟨x, hx, hpoints, hlabels⟩
    · refine .inl (hrow.trans ?_)
      simp [hnone]
    · have hfound := hmerged.found hhook hr hjob hx
      obtain ⟨overlay, hmem, hof⟩ := List.mem_filterMap.1 hjob
      obtain ⟨target, hbase, hmaterial, rfl⟩ := jobOf?_eq_some hof
      refine .inr ⟨overlay, x, ⟨hmem, hmaterial, ?_⟩, hfound, hpoints, by rw [hrow, hlabels]⟩
      rw [hbase]
      exact congrArg some htarget

/-! ### A name that is retracted at once -/

/-- The German name of a sticker, and its tombstone. -/
def retractedName : List ModelGroup :=
  [⟨"StickerLocale", [Stickers.item (Stickers.overlay "l1" "s1" "Katze") 1 false,
    Stickers.item (Stickers.overlay "l1" "s1" "Katze") 2 true]⟩]

theorem retractedName_succeeds :
    ∃ stats s', Stickers.merger.merge retractedName Stickers.store = (.ok stats, s') :=
  ok_of_toBool _ (by decide +kernel)

/-- The sticker and the names between the passes. -/
theorem retractedName_settled {settled : Database}
    (h : (Stickers.merger.firstPass retractedName Stickers.registry Stickers.content).map Prod.snd
      = .ok settled) :
    settled.rows "StickerLocale" = .ok Dict.empty
      ∧ settled.row? "Sticker" "s1" = some ⟨(Stickers.sticker "s1" "Cat").fields, 0⟩ := by
  have hleft : ((Stickers.merger.firstPass retractedName Stickers.registry
      Stickers.content).map Prod.snd).map
        (fun db => (db.rows "StickerLocale", db.row? "Sticker" "s1"))
      = .ok (.ok Dict.empty, some ⟨(Stickers.sticker "s1" "Cat").fields, 0⟩) := by
    rfl
  rw [h] at hleft
  exact Prod.ext_iff.1 (Except.ok.inj hleft)

/-- The sticker in the end. -/
theorem retractedName_after {stats : MergeStats} {after : Database}
    (h : Stickers.merger.merge retractedName Stickers.store
      = (.ok stats, .opened Stickers.registry after)) :
    after.row? "Sticker" "s1" = some ⟨(Stickers.sticker "s1" "Katze").fields, 0⟩ := by
  have hleft : ((Stickers.merger.merge retractedName Stickers.store).2.transact
      fun _ db => .ok (db.row? "Sticker" "s1", db)).1.toOption
        = some (some ⟨(Stickers.sticker "s1" "Katze").fields, 0⟩) := by
    decide +kernel
  rw [h] at hleft
  exact Option.some.inj hleft

/-- The second pass has changed the sticker. -/
theorem retractedName_changed {stats : MergeStats} {settled after : Database}
    (hfirst : (Stickers.merger.firstPass retractedName Stickers.registry Stickers.content).map
      Prod.snd = .ok settled)
    (hmerge : Stickers.merger.merge retractedName Stickers.store
      = (.ok stats, .opened Stickers.registry after)) :
    after.row? "Sticker" "s1" ≠ settled.row? "Sticker" "s1" := by
  rw [retractedName_after hmerge, (retractedName_settled hfirst).2]
  decide +kernel

theorem retractedName_source :
    Stickers.merger.hook = none ∧ Stickers.registry.Separate
      ∧ Stickers.store.registry = Stickers.registry
      ∧ ∃ stats settled after overlay x,
        Stickers.merger.merge retractedName Stickers.store
            = (.ok stats, .opened Stickers.registry after)
          ∧ Found Stickers.merger retractedName Stickers.content settled overlay x
          ∧ x.materialId? = some "s1"
          ∧ after.row? "Sticker" "s1"
            = (settled.row? "Sticker" "s1").map (·.patched (patchOf x)) := by
  refine ⟨rfl, Stickers.separate, rfl, ?_⟩
  obtain ⟨stats, s', hmerge⟩ := retractedName_succeeds
  obtain ⟨db, settled, after, hdb, rfl, hfirst, hsource⟩ :=
    overlay_source rfl Stickers.separate rfl hmerge
  cases hdb
  rcases hsource "Sticker" (by decide) "s1" with hsame | ⟨overlay, x, -, hfound, hpoints, hrow⟩
  · exact absurd hsame (retractedName_changed hfirst hmerge)
  · exact ⟨stats, settled, after, overlay.name, x, hmerge, hfound, hpoints, hrow⟩

/-- Whatever the second pass has written comes from rows of overlay models. -/
def CopiesRows (r : Registry) (settled after : Database) : Prop :=
  ∀ model ∈ r.modelNames, ∀ key, after.row? model key = settled.row? model key
    ∨ ∃ overlay x, LaidOver r overlay model ∧ x.model = overlay.name ∧ settled.Shows x
      ∧ x.materialId? = some key
      ∧ after.row? model key = (settled.row? model key).map (·.patched (patchOf x))

/-- The name is copied although its tombstone has come with it. -/
theorem retractedName_copied :
    ∃ stats settled after, Stickers.merger.hook = none
      ∧ (Stickers.merger.firstPass retractedName Stickers.registry Stickers.content).map Prod.snd
          = .ok settled
      ∧ Stickers.merger.merge retractedName Stickers.store
          = (.ok stats, .opened Stickers.registry after)
      ∧ ¬ CopiesRows Stickers.registry settled after := by
  obtain ⟨stats, s', hmerge⟩ := retractedName_succeeds
  obtain ⟨db, settled, after, hdb, rfl, hmerged⟩ :=
    merged_of_ok (keepsKeys_none rfl) Stickers.separate hmerge rfl
  cases hdb
  obtain ⟨first, hpass, -⟩ := hmerged.firstPass
  have hfirst := congrArg (Except.map Prod.snd) hpass
  refine ⟨stats, settled, after, rfl, hfirst, hmerge, fun hcopies => ?_⟩
  rcases hcopies "Sticker" (by decide) "s1" with
    hsame | ⟨overlay, x, ⟨hmem, -, hover⟩, hmodel, ⟨row, hrow, -⟩, -, -⟩
  · exact retractedName_changed hfirst hmerge hsame
  · -- The overlay would be a row of the only overlay model, which has none.
    have honly : ∀ overlay ∈ Stickers.registry.models,
        (Stickers.registry.overlayTarget? overlay.name).map (·.name) = some "Sticker" →
          overlay.name = "StickerLocale" := by decide +kernel
    rw [hmodel, honly overlay hmem hover,
      Database.row?_of_rows (retractedName_settled hfirst).1] at hrow
    cases hrow

end Merger

end Replica
