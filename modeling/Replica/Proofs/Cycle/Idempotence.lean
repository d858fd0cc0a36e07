/-
Replica.Proofs.Cycle.Idempotence — what a merge changes when it is repeated.

The main statement is `merge_again`, for both conflict policies and for any locale and hook.
The second merge starts from rows that the second pass has relabeled, under the same versions.
Its first pass either settles a row as before or passes over all of its items again
(`foldl_rowAfter_again`), so an overlay's row, which is never relabeled, is the same between
the passes both times. Hence both second passes set the same display fields (`labels_again`).

Setting them twice is setting them once, but each time the row is written again as its text is
read. So every row is as the first merge left it, except that a row which is given display
fields without being brought again can be that row read once more. Where numbers are read as
they were, the merge is idempotent; where one is not, it can change with every merge
(`smallScale_drifts`).

An overlay must not be laid over a model that is itself laid over another (`FlatOverlays`):
there the second pass would relabel the overlays it reads.
-/
import Replica.Proofs.Cycle.MergedRows

namespace Replica

/-- No overlay is laid over a model that is laid over a registered model itself. -/
def Registry.FlatOverlays (r : Registry) : Prop :=
  ∀ overlay ∈ r.models, (r.overlayTarget? overlay.name).bind (fun b => r.overlayTarget? b.name)
    = none

instance (r : Registry) : Decidable r.FlatOverlays :=
  inferInstanceAs (Decidable (∀ overlay ∈ r.models, _))

namespace Merger

variable {m : Merger} {r : Registry} {groups : List ModelGroup}
  {db settled after settled' after' : Database} {stats stats' : MergeStats} {model : String}

/-- The overlay model of a job is no job's target. -/
theorem not_isBase_of_job (hflat : r.FlatOverlays) {job : OverlayJob}
    (hjob : job ∈ jobs r groups) : ¬ IsBase r job.overlay := by
  obtain ⟨overlay, -, hof⟩ := List.mem_filterMap.1 hjob
  obtain ⟨target, htarget, -, rfl⟩ := jobOf?_eq_some hof
  rintro ⟨upper, hupper, -, hbase⟩
  obtain ⟨base, hbase, hname⟩ := Option.map_eq_some_iff.1 hbase
  have hnone := hflat upper hupper
  rw [hbase, Option.bind_some, hname] at hnone
  exact absurd (htarget.symm.trans hnone) (by simp)

/-- The first pass over the result of a merge settles each row as it did before, or neither
first pass changed it. -/
theorem settledRow_again (h : Merged m r groups db settled after stats)
    (h' : Merged m r groups after settled' after' stats') (hmodel : model ∈ r.modelNames)
    (key : String) :
    settled'.row? model key = settled.row? model key
      ∨ (settled.row? model key = db.row? model key
        ∧ settled'.row? model key = after.row? model key) := by
  have hversion : (after.row? model key).map Row.version
      = (settled.row? model key).map Row.version := by
    rw [h.row model hmodel key, Option.map_map]
    exact congrArg (Option.map · _) (funext fun row => Row.version_patched row _)
  rw [h.settledRow model hmodel key] at hversion ⊢
  rw [h'.settledRow model hmodel key]
  exact foldl_rowAfter_again _ hversion

/-- A model that no overlay is laid over has the same rows between the passes both times. -/
theorem settledRow_of_not_isBase (h : Merged m r groups db settled after stats)
    (h' : Merged m r groups after settled' after' stats') (hmodel : model ∈ r.modelNames)
    (hbase : ¬ IsBase m.registry model) (key : String) :
    settled'.row? model key = settled.row? model key := by
  have hsame : after.row? model key = settled.row? model key := by
    rw [h.row model hmodel key, labels_of_not_isBase hbase]
    simp
  rcases settledRow_again h h' hmodel key with hsettled | ⟨-, hsettled⟩
  · exact hsettled
  · exact hsettled.trans hsame

/-- Both second passes have the same display fields for a record. -/
theorem labels_again (hr : r.Separate) (hflat : m.registry.FlatOverlays)
    (h : Merged m r groups db settled after stats)
    (h' : Merged m r groups after settled' after' stats') (model key : String) :
    m.labels (.opened r settled') (jobs m.registry groups) model key
      = m.labels (.opened r settled) (jobs m.registry groups) model key := by
  unfold labels
  cases hfind : (jobs m.registry groups).find? (·.target = model) with
  | none => rfl
  | some job =>
    have hbase := not_isBase_of_job hflat (List.mem_of_find?_eq_some hfind)
    have hcandidates : m.candidates (.opened r settled') job
        = m.candidates (.opened r settled) job :=
      candidates_congr m job fun hmem => (h.keeps.trans h'.settledKeeps).rows_eq hr hmem
        (settledRow_of_not_isBase h h' hmem hbase)
    exact congrArg (labelsOf · key) hcandidates

/-- Both merges leave the same row, or the second one has written it again as its text is read. -/
theorem row_again (hr : r.Separate) (hflat : m.registry.FlatOverlays)
    (h : Merged m r groups db settled after stats)
    (h' : Merged m r groups after settled' after' stats') (hmodel : model ∈ r.modelNames)
    (key : String) :
    after'.row? model key = after.row? model key
      ∨ IsBase m.registry model
        ∧ after'.row? model key = (after.row? model key).map Row.reread := by
  have hfirst := h.row model hmodel key
  have hsecond := h'.row model hmodel key
  by_cases hbase : IsBase m.registry model
  · rw [labels_again hr hflat h h'] at hsecond
    rcases settledRow_again h h' hmodel key with hsettled | ⟨-, hsettled⟩
    · exact .inl (by rw [hsecond, hsettled, hfirst])
    · rw [hsecond, hsettled, hfirst]
      cases settled.row? model key with
      | none => exact .inl rfl
      | some row =>
        simp only [Option.map_some, Option.some.injEq]
        exact (Row.patched_patched fun e he => reread_of_mem_labels he).imp_right fun hread =>
          ⟨hbase, hread⟩
  · refine .inl ?_
    rw [hsecond, hfirst, settledRow_of_not_isBase h h' hmodel hbase, labels_of_not_isBase hbase,
      labels_of_not_isBase hbase]

/-- **A merge that is repeated.** Merging the same groups again succeeds. Every row stays as it
was, or is a row of a model that an overlay is laid over and is written again as its text is
read. If the texts of these rows are read as they were, nothing changes at all. -/
theorem merge_again (hkeeps : m.KeepsKeys) (hflat : m.registry.FlatOverlays) {s s' : Store}
    (hr : s.registry.Separate) (h : m.merge groups s = (.ok stats, s')) :
    ∃ after stats' after', s' = .opened s.registry after
      ∧ m.merge groups s' = (.ok stats', .opened s.registry after')
      ∧ Database.Keeps s.registry after after'
      ∧ (∀ model ∈ s.registry.modelNames, ∀ key,
        after'.row? model key = after.row? model key
          ∨ IsBase m.registry model
            ∧ after'.row? model key = (after.row? model key).map Row.reread)
      ∧ ((∀ model ∈ s.registry.modelNames, IsBase m.registry model →
          ∀ key, ∀ row ∈ after.row? model key, row.reread = row) → after' = after) := by
  obtain ⟨db, settled, after, -, rfl, hmerged⟩ := merged_of_ok hkeeps hr h rfl
  have hwritable : ∀ i ∈ itemsOf groups, Database.Writable s.registry after i.record.model :=
    fun i hi => ((hmerged.settledKeeps.trans hmerged.keeps).writable hr).2
      (hmerged.writable hkeeps hr i hi)
  obtain ⟨stats', s'', hagain⟩ := merge_of_writable hkeeps hr hmerged.known hwritable
  obtain ⟨start, settled', after', hstart, rfl, hmerged'⟩ :=
    merged_of_ok hkeeps hr hagain rfl
  cases hstart
  have hkeep := hmerged'.settledKeeps.trans hmerged'.keeps
  have hrow : ∀ model ∈ s.registry.modelNames, ∀ key,
      after'.row? model key = after.row? model key ∨ IsBase m.registry model
        ∧ after'.row? model key = (after.row? model key).map Row.reread :=
    fun _ hmodel key => row_again hr hflat hmerged hmerged' hmodel key
  refine ⟨after, stats', after', rfl, hagain, hkeep, hrow, fun hexact => ?_⟩
  refine hkeep.eq_of_rows hr fun model hmodel key => ?_
  rcases hrow model hmodel key with hsame | ⟨hbase, hread⟩
  · exact hsame
  · rw [hread]
    cases hfound : after.row? model key with
    | none => rfl
    | some row => rw [Option.map_some, hexact model hmodel hbase key row hfound]

/-! ### A sticker that gets its German name -/

/-- A sticker, an older version of it, and its German name. -/
def germanSticker : List ModelGroup :=
  [⟨"Sticker", [Stickers.item (Stickers.sticker "s1" "Cat") 5 false,
      Stickers.item (Stickers.sticker "s1" "Dog") 2 false]⟩,
    ⟨"StickerLocale", [Stickers.item (Stickers.overlay "l1" "s1" "Katze") 1 false]⟩]

/-- The sticker has no numbers that are not whole. -/
theorem germanSticker_exact {stats : MergeStats} {after : Database}
    (h : Stickers.checking.merge germanSticker Stickers.store
      = (.ok stats, .opened Stickers.registry after)) (key : String) {row : Row}
    (hrow : row ∈ after.row? "Sticker" key) : row.reread = row := by
  have hleft : ((Stickers.checking.merge germanSticker Stickers.store).2.transact
      fun _ db => .ok (((db.rows "Sticker").map fun rows =>
        rows.entries.all fun e => e.2.reread = e.2), db)).1.toOption = some (.ok true) := by
    decide +kernel
  rw [h] at hleft
  have hall : (after.rows "Sticker").map (fun rows =>
      rows.entries.all fun e => e.2.reread = e.2) = .ok true := Option.some.inj hleft
  cases hrows : after.rows "Sticker" with
  | error e =>
    rw [hrows] at hall
    cases hall
  | ok rows =>
    rw [hrows] at hall
    rw [Database.row?_of_rows hrows] at hrow
    exact of_decide_eq_true
      (List.all_eq_true.1 (Except.ok.inj hall) (key, row) (Dict.mem_entries.2 hrow))

theorem germanSticker_again :
    Stickers.checking.KeepsKeys ∧ Stickers.registry.FlatOverlays ∧ Stickers.registry.Separate
      ∧ ∃ stats after stats',
        Stickers.checking.merge germanSticker Stickers.store
            = (.ok stats, Store.opened Stickers.registry after)
          ∧ stats = ⟨2, 0, 1, 1⟩
          ∧ Stickers.checking.merge germanSticker (Store.opened Stickers.registry after)
            = (.ok stats', Store.opened Stickers.registry after) := by
  have hkeeps : Stickers.checking.KeepsKeys := keepsKeys_none rfl
  have hflat : Stickers.registry.FlatOverlays := by decide +kernel
  have hseparate : Stickers.store.registry.Separate := Stickers.separate
  refine ⟨hkeeps, hflat, hseparate, ?_⟩
  have hstats : (Stickers.checking.merge germanSticker Stickers.store).1.toOption
      = some ⟨2, 0, 1, 1⟩ := by decide +kernel
  obtain ⟨stats, s', hmerge⟩ :=
    ok_of_toBool (Stickers.checking.merge germanSticker Stickers.store) (by decide +kernel)
  rw [hmerge] at hstats
  obtain ⟨after, stats', after', rfl, hagain, -, -, hexact⟩ :=
    merge_again hkeeps hflat hseparate hmerge
  have honly : ∀ model ∈ Stickers.registry.modelNames, IsBase Stickers.registry model →
      model = "Sticker" := by decide +kernel
  obtain rfl : after' = after := hexact fun model hmodel hbase key row hrow =>
    germanSticker_exact hmerge key (honly model hmodel hbase ▸ hrow)
  exact ⟨stats, after', stats', hmerge, Option.some.inj hstats, hagain⟩

/-! ### A sticker of a small scale -/

/-- The scale of the sticker changes with every merge. -/
theorem smallScale_drifts :
    Stickers.merger.KeepsKeys ∧ Stickers.registry.FlatOverlays ∧ Stickers.registry.Separate
      ∧ ∃ stats after stats' after',
        Stickers.merger.merge Stickers.germanName Stickers.scaledStore
            = (.ok stats, Store.opened Stickers.registry after)
          ∧ Stickers.merger.merge Stickers.germanName (Store.opened Stickers.registry after)
            = (.ok stats', Store.opened Stickers.registry after')
          ∧ Stickers.scaleIn (Store.opened Stickers.registry after)
            ≠ Stickers.scaleIn (Store.opened Stickers.registry after') := by
  refine ⟨keepsKeys_none rfl, by decide +kernel, Stickers.separate, ?_⟩
  have hdrifts : Stickers.scaleIn (Stickers.merger.merge Stickers.germanName Stickers.scaledStore).2
      ≠ Stickers.scaleIn (Stickers.merger.merge Stickers.germanName
        (Stickers.merger.merge Stickers.germanName Stickers.scaledStore).2).2 := by decide +kernel
  obtain ⟨stats, s', hmerge⟩ :=
    ok_of_toBool (Stickers.merger.merge Stickers.germanName Stickers.scaledStore) (by decide +kernel)
  obtain ⟨db, settled, after, -, rfl, hmerged⟩ :=
    merged_of_ok (keepsKeys_none rfl) Stickers.separate hmerge rfl
  rw [hmerge] at hdrifts
  obtain ⟨stats', s'', hagain⟩ := merge_of_writable (m := Stickers.merger)
    (keepsKeys_none rfl) Stickers.separate hmerged.known fun i hi =>
      ((hmerged.settledKeeps.trans hmerged.keeps).writable Stickers.separate).2
        (hmerged.writable (keepsKeys_none rfl) Stickers.separate i hi)
  obtain ⟨_, _, after', -, rfl, -⟩ :=
    merged_of_ok (keepsKeys_none rfl) Stickers.separate hagain rfl
  rw [hagain] at hdrifts
  exact ⟨stats, after, stats', after', hmerge, hagain, hdrifts⟩

end Merger

end Replica
