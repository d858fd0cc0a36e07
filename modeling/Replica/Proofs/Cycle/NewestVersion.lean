/-
Replica.Proofs.Cycle.NewestVersion — where versions count, the newest version of a record stays.

Each item meets the row that the items before it have left, and is passed over when that row is
newer. Over live items this comes to one contest (`Settles`): the last item of the greatest
version takes the place of the row unless the row is newer than all of them. The invariant is
kept by one more item, whether it is older than the row it meets (`Settles.older`) or not
(`Settles.newer`). A tombstone forgets the row and its version, so the contest starts again
after the last one (`Item.Decides`).

Main statement: `newest_wins`, for every store that carries its transactions out on its content
or not at all. It follows that without a tombstone no stored version ever decreases. The row that
stays has the fields of the newest item; where the second pass gives it display fields, it is
written again as its text is read, and then some fractions are no longer the item's
(`scaledSticker_rewritten`).
-/
import Replica.Proofs.Cycle.Idempotence
import Replica.Proofs.Cycle.LastArrival
import Replica.Proofs.Cycle.Stages

namespace Replica

/-! ## The newest item -/

namespace Item

/-- The row of a live item. -/
def row (i : Item) : Row := ⟨i.record.fields, i.metadata.version⟩

/-- An item is the last one of the greatest version: those before it are not newer, and those
after it are older. -/
def IsNewest (items : List Item) (i : Item) : Prop :=
  ∃ before later, items = before ++ i :: later
    ∧ (∀ j ∈ before, j.metadata.version ≤ i.metadata.version)
    ∧ ∀ j ∈ later, j.metadata.version < i.metadata.version

variable {items : List Item} {i w : Item}

theorem isNewest_singleton (i : Item) : IsNewest [i] i := ⟨[], [], rfl, by simp, by simp⟩

theorem IsNewest.le (h : IsNewest items w) {j : Item} (hj : j ∈ items) :
    j.metadata.version ≤ w.metadata.version := by
  obtain ⟨before, later, rfl, hbefore, hlater⟩ := h
  rcases List.mem_append.1 hj with hj | hj
  · exact hbefore j hj
  · rcases List.mem_cons.1 hj with rfl | hj
    · exact Int.le_refl _
    · exact Int.le_of_lt (hlater j hj)

theorem IsNewest.mem (h : IsNewest items w) : w ∈ items := by
  obtain ⟨before, later, rfl, -, -⟩ := h
  simp

/-- An older item at the end changes nothing. -/
theorem IsNewest.append_older (h : IsNewest items w)
    (hi : i.metadata.version < w.metadata.version) : IsNewest (items ++ [i]) w := by
  obtain ⟨before, later, rfl, hbefore, hlater⟩ := h
  refine ⟨before, later ++ [i], by simp, hbefore, ?_⟩
  intro j hj
  rcases List.mem_append.1 hj with hj | hj
  · exact hlater j hj
  · rw [List.mem_singleton.1 hj]
    exact hi

/-- An item at the end that is not older is the newest. -/
theorem IsNewest.append_newer (h : IsNewest items w)
    (hi : w.metadata.version ≤ i.metadata.version) : IsNewest (items ++ [i]) i := by
  refine ⟨items, [], rfl, ?_, by simp⟩
  intro j hj
  exact Int.le_trans (h.le hj) hi

/-- There is one newest item at most. -/
theorem IsNewest.unique {v : Item} (hv : IsNewest items v) (hw : IsNewest items w) : v = w := by
  have hle := hw.le hv.mem
  have hge := hv.le hw.mem
  obtain ⟨before, later, rfl, -, hlater⟩ := hv
  obtain ⟨before', later', hsame, -, hlater'⟩ := hw
  rcases List.append_eq_append_iff.1 hsame with ⟨between, rfl, hrest⟩ | ⟨between, rfl, hrest⟩
  · cases between with
    | nil => exact (List.cons.inj hrest).1
    | cons j rest =>
      have hmem : w ∈ later := by
        rw [(List.cons.inj hrest).2]
        simp
      exact absurd (hlater w hmem) (Int.not_lt.2 hle)
  · cases between with
    | nil => exact (List.cons.inj hrest).1.symm
    | cons j rest =>
      have hmem : v ∈ later' := by
        rw [(List.cons.inj hrest).2]
        simp
      exact absurd (hlater' v hmem) (Int.not_lt.2 hge)

/-! ## The contest for a row -/

/-- What live items make of the row that they meet. -/
inductive Settles (items : List Item) (start : Option Row) : Option Row → Prop
  /-- Without an item the row stays. -/
  | untouched (hnone : items = []) : Settles items start start
  /-- The newest item takes the place of a row that is not newer. -/
  | replaced {i : Item} (hi : IsNewest items i)
      (hold : ∀ row ∈ start, row.version ≤ i.metadata.version) :
      Settles items start (some i.row)
  /-- A row that is newer than all items stays. -/
  | kept {i : Item} (hi : IsNewest items i) {row : Row} (hrow : row ∈ start)
      (hnew : i.metadata.version < row.version) : Settles items start start

variable {start found : Option Row}

/-- An item that is older than the row it meets changes nothing. -/
theorem Settles.older (h : Settles items start found) {row : Row} (hrow : row ∈ found)
    (hi : i.metadata.version < row.version) : Settles (items ++ [i]) start found := by
  cases h with
  | untouched hnone =>
    subst hnone
    exact .kept (isNewest_singleton i) hrow hi
  | @replaced w hw hold =>
    cases hrow
    exact .replaced (hw.append_older hi) hold
  | @kept w hw row' hrow' hnew =>
    cases hrow.symm.trans hrow'
    rcases Int.lt_or_le i.metadata.version w.metadata.version with hlt | hle
    · exact .kept (hw.append_older hlt) hrow hnew
    · exact .kept (hw.append_newer hle) hrow hi

/-- An item that is not older than the row it meets takes its place. -/
theorem Settles.newer (h : Settles items start found)
    (hi : ∀ row ∈ found, row.version ≤ i.metadata.version) :
    Settles (items ++ [i]) start (some i.row) := by
  cases h with
  | untouched hnone =>
    subst hnone
    exact .replaced (isNewest_singleton i) hi
  | @replaced w hw hold =>
    have hnewer : w.metadata.version ≤ i.metadata.version := hi w.row rfl
    refine .replaced (hw.append_newer hnewer) ?_
    intro row hrow
    exact Int.le_trans (hold row hrow) hnewer
  | @kept w hw row hrow hnew =>
    have hnewer := hi row hrow
    exact .replaced (hw.append_newer (Int.le_of_lt (Int.lt_of_lt_of_le hnew hnewer))) hi

/-- The row that is left is not older than the one that was met. -/
theorem Settles.version_le (h : Settles items start found) :
    ∀ row ∈ start, ∃ row' ∈ found, row.version ≤ row'.version := by
  intro row hrow
  cases h with
  | untouched | kept => exact ⟨row, hrow, Int.le_refl _⟩
  | @replaced i hi hold => exact ⟨i.row, rfl, hold row hrow⟩

/-- The contest has one result. -/
theorem Settles.unique {other : Option Row} (h : Settles items start found)
    (h' : Settles items start other) : found = other := by
  cases h with
  | untouched hnone =>
    subst hnone
    cases h' with
    | untouched | kept => rfl
    | replaced hi => simpa using hi.mem
  | @replaced i hi hold =>
    cases h' with
    | untouched hnone =>
      subst hnone
      simpa using hi.mem
    | replaced hi' => rw [hi.unique hi']
    | @kept i' hi' row hrow hnew =>
      cases hi.unique hi'
      exact absurd hnew (Int.not_lt.2 (hold row hrow))
  | @kept i hi row hrow hnew =>
    cases h' with
    | untouched | kept => rfl
    | @replaced i' hi' hold =>
      cases hi.unique hi'
      exact absurd hnew (Int.not_lt.2 (hold row hrow))

/-! ## Tombstones -/

/-- What the items of an identifier make of its row: behind the last tombstone it is the contest
of the live items, for no row; without a tombstone it is the contest of all items, for the row
that was there. -/
structure Decides (items : List Item) (start found : Option Row) : Prop where
  behindTombstone : ∀ front t live, items = front ++ t :: live → t.isTombstone = true →
    (∀ i ∈ live, i.isTombstone = false) → Settles live none found
  withoutTombstone : (∀ i ∈ items, i.isTombstone = false) → Settles items start found

end Item

namespace Merger

open Item

variable {m : Merger} {r : Registry} {groups : List ModelGroup}

/-! ## Items of one identifier -/

/-- Without a hook a live item leaves its record as it is. -/
theorem rowOf_live (hhook : m.hook = none) {i : Item} (hlive : i.isTombstone = false) :
    m.rowOf i = some i.row := by
  simp [rowOf, hlive, hhook, Item.row]

/-- Live items, one after the other, settle a row. -/
theorem foldl_rowAfter_settles (hpolicy : m.policy = .versionChecked) (hhook : m.hook = none)
    (items : List Item) (hlive : ∀ i ∈ items, i.isTombstone = false) (start : Option Row) :
    Settles items start (items.foldl m.rowAfter start) := by
  induction items using List.reverseRecOn with
  | nil => exact .untouched rfl
  | append_singleton before i ih =>
    have hbefore := ih fun j hj => hlive j (List.mem_append_left _ hj)
    have hi : i.isTombstone = false := hlive i (by simp)
    rw [List.foldl_append, List.foldl_cons, List.foldl_nil]
    rcases Bool.eq_false_or_eq_true (m.passesOver (before.foldl m.rowAfter start) i) with
      hpassed | hkept
    · rw [rowAfter_passedOver hi hpassed]
      obtain ⟨-, version, hversion, hlt⟩ := isStale_of_passesOver hpassed
      obtain ⟨row, hrow, rfl⟩ := Option.map_eq_some_iff.1 hversion
      exact hbefore.older hrow hlt
    · rw [rowAfter_of_not_passedOver hkept, rowOf_live hhook hi]
      refine hbefore.newer fun row hrow => Int.not_lt.1 fun hlt => ?_
      have hversion : (before.foldl m.rowAfter start).map Row.version = some row.version := by
        rw [Option.mem_def.1 hrow, Option.map_some]
      rw [passesOver_of_lt hpolicy hversion hlt] at hkept
      cases hkept

/-- All items of an identifier, one after the other, decide its row. -/
theorem foldl_rowAfter_decides (hpolicy : m.policy = .versionChecked) (hhook : m.hook = none)
    (items : List Item) (start : Option Row) :
    Decides items start (items.foldl m.rowAfter start) := by
  constructor
  · intro front t live hsplit ht hlive
    rw [hsplit, List.foldl_append, List.foldl_cons, rowAfter_tombstone ht]
    exact foldl_rowAfter_settles hpolicy hhook live hlive none
  · intro hlive
    exact foldl_rowAfter_settles hpolicy hhook items hlive start

/-! ## Merges -/

section Refusing

variable {σ : Type} [LocalStore σ] [Faithful σ] {s s' : σ} {stats : MergeStats}

open Transactional (content)

/-- A merge over a content `db`, carried out on any store, that left the content `settled` after
its first pass and `after` in the end. -/
structure Relabels (m : Merger) (r : Registry) (groups : List ModelGroup)
    (db settled after : Database) (stats : MergeStats) : Prop where
  counted : stats.upserted + stats.deleted + stats.stale = (itemsOf groups).length
  settledRow : ∀ model ∈ r.modelNames, ∀ key, settled.row? model key
    = ((itemsOf groups).filter (Item.isFor model key)).foldl m.rowAfter (db.row? model key)
  keeps : Database.Keeps r db after
  relabeled : ∀ model ∈ r.modelNames, ∀ key,
    Option.Rel Row.Relabeled (settled.row? model key) (after.row? model key)
  untouched : ∀ model ∈ r.modelNames, model ∉ (jobs m.registry groups).map (·.target) →
    ∀ key, after.row? model key = settled.row? model key

/-- A merge that succeeds takes each row through the items of its identifier, and relabels it. -/
theorem relabels_of_ok (hkeeps : m.KeepsKeys) (hr : r.Separate)
    (hregistry : (content s).registry = r) (h : m.merge groups s = (.ok stats, s')) :
    ∃ db settled after, content s = .opened r db ∧ content s' = .opened r after
      ∧ Relabels m r groups db settled after stats := by
  obtain ⟨-, first, s₁, htransact, hstats, hpass⟩ := merge_ok h
  obtain ⟨r', db, settled, hs, hfirst, hsettled⟩ :=
    Store.transact_ok (Faithful.transact_ok htransact)
  rw [hs] at hregistry
  cases hregistry
  obtain ⟨after, hafter, hkeep, hrow⟩ :=
    m.secondPass_relabels hr (targets_distinct m.registry groups) hsettled
  rw [hpass] at hafter
  obtain ⟨hsettledKeeps, hsettledRow⟩ := applyItems_row hkeeps hr hfirst
  refine ⟨db, settled, after, hs, hafter, ?_, hsettledRow, hsettledKeeps.trans hkeep, ?_, ?_⟩
  · have hsum := (applyItems_counts hfirst).1
    rw [hstats]
    simpa [noStats] using hsum
  · intro model hmodel key
    exact (hrow model hmodel key).1
  · intro model hmodel hfree key
    exact (hrow model hmodel key).2 hfree

/-- Merges one after the other; one that fails leaves the store to the next. -/
def mergeAll (m : Merger) (batches : List (List ModelGroup)) (s : σ) : σ :=
  batches.foldl (fun s groups => (m.merge groups s).2) s

/-- No item of a batch says that a record is gone. -/
def Spares (groups : List ModelGroup) (model key : String) : Prop :=
  ∀ i ∈ (itemsOf groups).filter (Item.isFor model key), i.isTombstone = false

instance (groups : List ModelGroup) (model key : String) : Decidable (Spares groups model key) :=
  inferInstanceAs (Decidable (∀ i ∈ (itemsOf groups).filter _, _))

/-- One merge, whether it succeeds or fails: without a tombstone a row does not get older. -/
theorem merge_version_le (hpolicy : m.policy = .versionChecked) (hhook : m.hook = none)
    (hr : r.Separate) {db : Database} (hs : content s = .opened r db)
    (groups : List ModelGroup) :
    ∃ after, content (m.merge groups s).2 = .opened r after
      ∧ ∀ model ∈ r.modelNames, ∀ key, Spares groups model key →
        ∀ row ∈ db.row? model key, ∃ row' ∈ after.row? model key, row.version ≤ row'.version := by
  cases hmerge : m.merge groups s with
  | mk answer s' =>
    cases answer with
    | error e =>
      refine ⟨db, (merge_error hmerge).trans hs, ?_⟩
      intro model _ key _ row hrow
      exact ⟨row, hrow, Int.le_refl _⟩
    | ok stats =>
      have hregistry : (content s).registry = r := by
        rw [hs]
        rfl
      obtain ⟨db', settled, after, hs', hafter, hrelabels⟩ :=
        relabels_of_ok (keepsKeys_none hhook) hr hregistry hmerge
      cases hs.symm.trans hs'
      refine ⟨after, hafter, ?_⟩
      intro model hmodel key hspares row hrow
      have hrelabeled := hrelabels.relabeled model hmodel key
      rw [hrelabels.settledRow model hmodel key] at hrelabeled
      obtain ⟨row', hrow', hle⟩ :=
        (foldl_rowAfter_settles hpolicy hhook _ hspares _).version_le row hrow
      rw [Option.mem_def.1 hrow'] at hrelabeled
      obtain ⟨last, hlast, hversion⟩ := Row.Relabeled.exists_of_some hrelabeled
      exact ⟨last, hlast, hversion ▸ hle⟩

/-- Merges one after the other: without a tombstone a row does not get older. -/
theorem mergeAll_version_le (hpolicy : m.policy = .versionChecked) (hhook : m.hook = none)
    (hr : r.Separate) (batches : List (List ModelGroup)) {db : Database}
    (hs : content s = .opened r db) :
    ∃ last, content (m.mergeAll batches s) = .opened r last
      ∧ ∀ model ∈ r.modelNames, ∀ key, (∀ groups ∈ batches, Spares groups model key) →
        ∀ row ∈ db.row? model key, ∃ row' ∈ last.row? model key, row.version ≤ row'.version := by
  induction batches generalizing s db with
  | nil =>
    refine ⟨db, hs, ?_⟩
    intro model _ key _ row hrow
    exact ⟨row, hrow, Int.le_refl _⟩
  | cons groups rest ih =>
    obtain ⟨after, hafter, hfirst⟩ := merge_version_le hpolicy hhook hr hs groups
    obtain ⟨last, hlast, hrest⟩ := ih hafter
    refine ⟨last, hlast, ?_⟩
    intro model hmodel key hspares row hrow
    obtain ⟨mid, hmid, hle⟩ :=
      hfirst model hmodel key (hspares groups (List.mem_cons_self ..)) row hrow
    obtain ⟨row', hrow', hle'⟩ :=
      hrest model hmodel key (fun g hg => hspares g (List.mem_cons_of_mem _ hg)) mid hmid
    exact ⟨row', hrow', Int.le_trans hle hle'⟩

/-- **The newest version wins.** Where versions count, a merge that succeeds leaves for each
identifier the row that its items decide on (`Item.Decides`). The second pass sets display fields
at most, and nothing in models that it has no job for; what is not a row of a registered model
stays as it was, and every item counts once. Over any merges without a tombstone for an
identifier, be it that some of them fail, the version of its row never decreases. -/
theorem newest_wins (hpolicy : m.policy = .versionChecked) (hhook : m.hook = none)
    (hr : r.Separate) (hregistry : (content s).registry = r) :
    (∀ groups stats s', m.merge groups s = (.ok stats, s') →
      ∃ db after, content s = .opened r db ∧ content s' = .opened r after
        ∧ (∀ model ∈ r.modelNames, ∀ key, ∃ settled,
          Item.Decides ((itemsOf groups).filter (Item.isFor model key)) (db.row? model key) settled
            ∧ Option.Rel Row.Relabeled settled (after.row? model key)
            ∧ (model ∉ (jobs m.registry groups).map (·.target) →
              after.row? model key = settled))
        ∧ Database.Keeps r db after
        ∧ stats.upserted + stats.deleted + stats.stale = (itemsOf groups).length)
      ∧ ∀ batches db, content s = .opened r db →
        ∃ last, content (m.mergeAll batches s) = .opened r last
          ∧ ∀ model ∈ r.modelNames, ∀ key, (∀ groups ∈ batches, Spares groups model key) →
            ∀ row ∈ db.row? model key,
              ∃ row' ∈ last.row? model key, row.version ≤ row'.version := by
  constructor
  · intro groups stats s' h
    obtain ⟨db, settled, after, hs, hafter, hrelabels⟩ :=
      relabels_of_ok (keepsKeys_none hhook) hr hregistry h
    refine ⟨db, after, hs, hafter, ?_, hrelabels.keeps, hrelabels.counted⟩
    intro model hmodel key
    refine ⟨settled.row? model key, ?_, hrelabels.relabeled model hmodel key, ?_⟩
    · rw [hrelabels.settledRow model hmodel key]
      exact foldl_rowAfter_decides hpolicy hhook _ _
    · intro hfree
      exact hrelabels.untouched model hmodel hfree key
  · intro batches db hs
    exact mergeAll_version_le hpolicy hhook hr batches hs

end Refusing

/-! ### Stickers under several versions -/

namespace Stickers

/-- Names of two stickers, the first one twice under its greatest version, the second one gone
in between, and an old version of a sticker. -/
def contested : List ModelGroup :=
  [⟨"StickerLocale", [item (overlay "l1" "s1" "Hund") 5 false,
      item (overlay "l1" "s1" "Fuchs") 5 false, item (overlay "l1" "s1" "Wolf") 3 false,
      item (overlay "l2" "s2" "Eule") 7 false, item (overlay "l2" "s2" "Eule") 7 true,
      item (overlay "l2" "s2" "Emu") (-2) false, item (overlay "l2" "s2" "Kiwi") (-4) false]⟩,
    ⟨"Sticker", [item (sticker "s1" "Dog") (-1) false]⟩]

theorem contested_settled :
    checking.policy = .versionChecked ∧ checking.hook = none ∧ registry.Separate
      ∧ (∃ stats after, checking.merge contested store = (.ok stats, .opened registry after)
        ∧ stats.upserted + stats.deleted + stats.stale = 8
        ∧ after.row? "StickerLocale" "l1" = some ⟨(overlay "l1" "s1" "Fuchs").fields, 5⟩
        ∧ after.row? "StickerLocale" "l2" = some ⟨(overlay "l2" "s2" "Emu").fields, -2⟩
        ∧ ∃ row ∈ after.row? "Sticker" "s1", row.version = 0)
      ∧ ∃ last, checking.mergeAll [contested, contested] store = .opened registry last
        ∧ ∃ row ∈ last.row? "Sticker" "s1", 0 ≤ row.version := by
  refine ⟨rfl, rfl, separate, ?_⟩
  obtain ⟨hmerge, hrun⟩ :=
    newest_wins (m := checking) rfl rfl separate (s := store) (r := registry) rfl
  have hsticker : "Sticker" ∈ registry.modelNames := by decide
  have hname : "StickerLocale" ∈ registry.modelNames := by decide
  constructor
  · obtain ⟨stats, s', h⟩ := ok_of_toBool (checking.merge contested store) (by decide +kernel)
    obtain ⟨db, after, hdb, hafter, hrows, -, hcount⟩ := hmerge _ _ _ h
    cases hdb
    have hstore : s' = .opened registry after := hafter
    subst hstore
    have hfree : "StickerLocale" ∉ (jobs checking.registry contested).map (·.target) := by
      decide +kernel
    refine ⟨stats, after, h, hcount.trans (by decide +kernel), ?_, ?_, ?_⟩
    · obtain ⟨settled, hdecides, -, hsame⟩ := hrows _ hname "l1"
      have hsettles := hdecides.withoutTombstone (by decide +kernel)
      rw [hsame hfree]
      exact hsettles.unique (.replaced (i := item (overlay "l1" "s1" "Fuchs") 5 false)
        ⟨[item (overlay "l1" "s1" "Hund") 5 false], [item (overlay "l1" "s1" "Wolf") 3 false],
          by decide +kernel, by decide +kernel, by decide +kernel⟩ (by decide +kernel))
    · obtain ⟨settled, hdecides, -, hsame⟩ := hrows _ hname "l2"
      have hsettles := hdecides.behindTombstone [item (overlay "l2" "s2" "Eule") 7 false]
        (item (overlay "l2" "s2" "Eule") 7 true)
        [item (overlay "l2" "s2" "Emu") (-2) false, item (overlay "l2" "s2" "Kiwi") (-4) false]
        (by decide +kernel) rfl (by decide +kernel)
      rw [hsame hfree]
      exact hsettles.unique (.replaced (i := item (overlay "l2" "s2" "Emu") (-2) false)
        ⟨[], [item (overlay "l2" "s2" "Kiwi") (-4) false], rfl, by simp, by decide +kernel⟩
        (by simp))
    · obtain ⟨settled, hdecides, hrelabeled, -⟩ := hrows _ hsticker "s1"
      have hcat : content.row? "Sticker" "s1" = some ⟨(sticker "s1" "Cat").fields, 0⟩ := by
        decide +kernel
      have hsettles := hdecides.withoutTombstone (by decide +kernel)
      have hkept := hsettles.unique (.kept (i := item (sticker "s1" "Dog") (-1) false)
        ⟨[], [], by decide +kernel, by simp, by simp⟩ (Option.mem_def.2 hcat) (by decide +kernel))
      rw [hkept, hcat] at hrelabeled
      exact Row.Relabeled.exists_of_some hrelabeled
  · obtain ⟨last, hlast, hversions⟩ := hrun [contested, contested] _ rfl
    refine ⟨last, hlast, ?_⟩
    obtain ⟨row, hrow, hle⟩ := hversions _ hsticker "s1" (by decide +kernel)
      ⟨(sticker "s1" "Cat").fields, 0⟩ (by decide +kernel)
    exact ⟨row, hrow, hle⟩

/-- A sticker of a small scale is brought together with its German name. -/
def broughtScaled : List ModelGroup := ⟨"Sticker", [item scaledSticker 1 false]⟩ :: germanName

/-- The row that stays has the version of the only item, but not its scale. -/
theorem scaledSticker_rewritten :
    checking.policy = .versionChecked ∧ checking.hook = none ∧ registry.Separate
      ∧ (itemsOf broughtScaled).filter (Item.isFor "Sticker" "s1") = [item scaledSticker 1 false]
      ∧ ∃ stats s', checking.merge broughtScaled store = (.ok stats, s')
        ∧ versionIn s' = some 1 ∧ scaleIn s' ≠ scaledSticker.fields.get? "scale" := by
  refine ⟨rfl, rfl, separate, by decide +kernel, ?_⟩
  have hversion : versionIn (checking.merge broughtScaled store).2 = some 1 := by decide +kernel
  have hscale : scaleIn (checking.merge broughtScaled store).2
      ≠ scaledSticker.fields.get? "scale" := by decide +kernel
  obtain ⟨stats, s', hmerge⟩ := ok_of_toBool (checking.merge broughtScaled store) (by decide +kernel)
  rw [hmerge] at hversion hscale
  exact ⟨stats, s', hmerge, hversion, hscale⟩

end Stickers

end Merger

end Replica
