/-
Replica.Proofs.Cycle.FirstPass — what the first pass of a merge does to each row.

An item touches the row under its own model and identifier and no other. `rowAfter` is the
row that it leaves there, in view of the one it found: none for a tombstone, the old one when
the item is passed over, and its own otherwise (`applyItem_writes`). So the row under an
identifier after the pass is the one before it taken through the items of that identifier,
one after the other (`applyItems_row`). The pass is carried out exactly when every item's
model is registered and has a table (`applyItems_ok_iff`).

When the pass is run a second time, over rows whose versions it left there, each row is
either settled as before or not touched by either run (`foldl_rowAfter_again`).
-/
import Mathlib.Data.List.Induction
import Replica.Cycle.Merge
import Replica.Proofs.Store.RowView

namespace Replica

/-- Whether an item is about the record under an identifier. -/
def Item.isFor (model key : String) (i : Item) : Bool :=
  i.record.model = model ∧ i.record.id = key

namespace Merger

/-! ## The row that an item leaves -/

/-- The hook changes fields only. -/
def KeepsKeys (m : Merger) : Prop :=
  ∀ x : Record, ((m.hook.getD id) x).model = x.model ∧ ((m.hook.getD id) x).id = x.id

theorem keepsKeys_none {m : Merger} (h : m.hook = none) : m.KeepsKeys := by
  intro x
  simp [h]

/-- The row that an item leaves. -/
def rowOf (m : Merger) (i : Item) : Option Row :=
  if i.isTombstone then none else some ⟨((m.hook.getD id) i.record).fields, i.metadata.version⟩

/-- Whether an item is passed over: versions count, and the stored one is newer. -/
def passesOver (m : Merger) (row : Option Row) (i : Item) : Bool :=
  m.policy = .versionChecked ∧ isStale (row.map Row.version) i = true

/-- The row under an item's identifier, once the item was applied. -/
def rowAfter (m : Merger) (row : Option Row) (i : Item) : Option Row :=
  if i.isTombstone = false ∧ m.passesOver row i = true then row else m.rowOf i

variable {m : Merger} {r : Registry} {model key : String} {db db' : Database} {i : Item}
  {items : List Item} {stats stats' : MergeStats} {row row' : Option Row}

theorem rowAfter_tombstone (h : i.isTombstone = true) : m.rowAfter row i = none := by
  simp [rowAfter, h, rowOf]

theorem rowAfter_passedOver (hlive : i.isTombstone = false) (h : m.passesOver row i = true) :
    m.rowAfter row i = row := if_pos ⟨hlive, h⟩

theorem rowAfter_of_not_passedOver (h : m.passesOver row i = false) :
    m.rowAfter row i = m.rowOf i := if_neg fun hboth => by simp [h] at hboth

/-- In the order of arrival every item leaves its own row. -/
theorem rowAfter_arrivalOrder (hpolicy : m.policy = .arrivalOrder) (row : Option Row) (i : Item) :
    m.rowAfter row i = m.rowOf i := rowAfter_of_not_passedOver (by simp [passesOver, hpolicy])

/-- Only the version of the stored row decides whether an item is passed over. -/
theorem passesOver_congr (h : row'.map Row.version = row.map Row.version) (i : Item) :
    m.passesOver row' i = m.passesOver row i := by
  rw [passesOver, passesOver, h]

/-! ## One item -/

/-- What applying an item amounts to. -/
inductive Applied (m : Merger) (i : Item) (stats : MergeStats) (r : Registry) (db : Database) :
    MergeStats → Database → Prop
  /-- A tombstone deletes. -/
  | deleted {answer : Bool} {db' : Database} (htomb : i.isTombstone = true)
      (h : db.delete r i.record.model i.record.id = .ok (answer, db')) :
      Applied m i stats r db { stats with deleted := stats.deleted + 1 } db'
  /-- A live item that is older than its row is passed over. -/
  | passed {stored : Option Int} (hlive : i.isTombstone = false)
      (hpolicy : m.policy = .versionChecked)
      (h : db.versionOf r i.record.model i.record.id = .ok stored)
      (hstale : isStale stored i = true) :
      Applied m i stats r db { stats with stale := stats.stale + 1 } db
  /-- Any other live item is written. -/
  | written {db' : Database} (hlive : i.isTombstone = false)
      (hfresh : m.policy = .arrivalOrder ∨ ∃ stored,
        db.versionOf r i.record.model i.record.id = .ok stored ∧ isStale stored i = false)
      (h : db.save r ((m.hook.getD id) i.record) i.metadata.version = .ok db') :
      Applied m i stats r db { stats with upserted := stats.upserted + 1 } db'

theorem upsert_ok (h : m.upsert i stats r db = .ok (stats', db')) :
    db.save r ((m.hook.getD id) i.record) i.metadata.version = .ok db'
      ∧ stats' = { stats with upserted := stats.upserted + 1 } := by
  simp only [upsert, bind, Except.bind] at h
  split at h
  · simp at h
  · rename_i saved hsave
    cases h
    exact ⟨hsave, rfl⟩

theorem applied_of_ok (h : m.applyItem i stats r db = .ok (stats', db')) :
    Applied m i stats r db stats' db' := by
  simp only [applyItem, bind, Except.bind] at h
  split at h
  · rename_i htomb
    split at h
    · simp at h
    · rename_i hdelete
      cases h
      exact .deleted htomb hdelete
  · rename_i htomb
    have hlive : i.isTombstone = false := by simpa using htomb
    split at h
    · rename_i hpolicy
      obtain ⟨hsave, rfl⟩ := upsert_ok h
      exact .written hlive (.inl hpolicy) hsave
    · rename_i hpolicy
      split at h
      · simp at h
      · rename_i stored hstored
        split at h
        · rename_i hstale
          cases h
          exact .passed hlive hpolicy hstored hstale
        · rename_i hstale
          obtain ⟨hsave, rfl⟩ := upsert_ok h
          exact .written hlive (.inr ⟨stored, hstored, by simpa using hstale⟩) hsave

theorem passesOver_of_versionOf (hr : r.Separate) {stored : Option Int}
    (h : db.versionOf r i.record.model i.record.id = .ok stored) :
    m.passesOver (db.row? i.record.model i.record.id) i
      = decide (m.policy = .versionChecked ∧ isStale stored i = true) := by
  rw [passesOver, (Database.versionOf_eq hr h).2]

/-- An item writes the row that it leaves, and nothing else. -/
theorem applyItem_writes (hkeeps : m.KeepsKeys) (hr : r.Separate)
    (h : m.applyItem i stats r db = .ok (stats', db')) :
    Database.Writable r db i.record.model
      ∧ Database.Writes r db db' i.record.model i.record.id
          (m.rowAfter (db.row? i.record.model i.record.id) i) := by
  cases applied_of_ok h with
  | deleted htomb hdelete =>
    rw [rowAfter_tombstone htomb]
    exact Database.writes_delete hr hdelete
  | @passed stored hlive hpolicy hstored hstale =>
    have hpassed : m.passesOver (db.row? i.record.model i.record.id) i = true := by
      rw [passesOver_of_versionOf hr hstored]
      exact decide_eq_true ⟨hpolicy, hstale⟩
    rw [rowAfter_passedOver hlive hpassed]
    exact ⟨(Database.versionOf_eq hr hstored).1, .nothing r db _ _⟩
  | written hlive hfresh hsave =>
    have hkept : m.passesOver (db.row? i.record.model i.record.id) i = false := by
      rcases hfresh with hpolicy | ⟨stored, hstored, hstale⟩
      · simp [passesOver, hpolicy]
      · rw [passesOver_of_versionOf hr hstored]
        simp [hstale]
    have hrow : m.rowOf i
        = some ⟨((m.hook.getD id) i.record).fields, i.metadata.version⟩ := by
      simp [rowOf, hlive]
    obtain ⟨hmodel, hid⟩ := hkeeps i.record
    have hwrites := Database.writes_save hr hsave
    rw [hmodel, hid, ← hrow] at hwrites
    rw [rowAfter_of_not_passedOver hkept]
    exact hwrites

/-- An item is applied when its model has a table. -/
theorem applyItem_of_writable (hkeeps : m.KeepsKeys) (hr : r.Separate)
    (h : Database.Writable r db i.record.model) (stats : MergeStats) :
    ∃ stats' db', m.applyItem i stats r db = .ok (stats', db') := by
  have hupsert : ∃ stats' db', m.upsert i stats r db = .ok (stats', db') := by
    rw [← (hkeeps i.record).1] at h
    obtain ⟨saved, hsave⟩ := Database.save_of_writable h i.metadata.version
    simp only [upsert, hsave, bind, Except.bind]
    exact ⟨_, _, rfl⟩
  unfold applyItem
  split
  · obtain ⟨answer, rest, hdelete⟩ := Database.delete_of_writable hr h i.record.id
    simp only [hdelete, bind, Except.bind]
    exact ⟨_, _, rfl⟩
  · split
    · exact hupsert
    · simp only [Database.versionOf_of_writable hr h, bind, Except.bind]
      split
      · exact ⟨_, _, rfl⟩
      · exact hupsert

/-- Every item is counted once. -/
theorem applyItem_counts (h : m.applyItem i stats r db = .ok (stats', db')) :
    stats'.upserted + stats'.deleted + stats'.stale
        = stats.upserted + stats.deleted + stats.stale + 1
      ∧ (m.policy = .arrivalOrder → stats'.stale = stats.stale) := by
  cases applied_of_ok h with
  | deleted => exact ⟨by simp only; omega, fun _ => rfl⟩
  | passed _ hpolicy => exact ⟨by simp only; omega, fun harrival => by simp [hpolicy] at harrival⟩
  | written => exact ⟨by simp only; omega, fun _ => rfl⟩

/-! ## All items -/

theorem applyItems_cons {rest : List Item}
    (h : m.applyItems (i :: rest) stats r db = .ok (stats', db')) :
    ∃ next mid, m.applyItem i stats r db = .ok (next, mid)
      ∧ m.applyItems rest next r mid = .ok (stats', db') := by
  simp only [applyItems, bind, Except.bind] at h
  split at h
  · simp at h
  · rename_i answer hitem
    exact ⟨answer.1, answer.2, hitem, h⟩

/-- The items of an identifier, one after the other, decide its row. -/
theorem applyItems_row (hkeeps : m.KeepsKeys) (hr : r.Separate)
    (h : m.applyItems items stats r db = .ok (stats', db')) :
    Database.Keeps r db db' ∧ ∀ model ∈ r.modelNames, ∀ key,
      db'.row? model key
        = (items.filter (Item.isFor model key)).foldl m.rowAfter (db.row? model key) := by
  induction items generalizing stats db with
  | nil =>
    cases h
    exact ⟨.refl r _, fun _ _ _ => rfl⟩
  | cons i rest ih =>
    obtain ⟨next, mid, hitem, hrest⟩ := applyItems_cons h
    obtain ⟨-, hwrites⟩ := applyItem_writes hkeeps hr hitem
    obtain ⟨hkeep, hrow⟩ := ih hrest
    refine ⟨hwrites.keeps.trans hkeep, fun model hmodel key => ?_⟩
    rw [hrow model hmodel key, hwrites.row model hmodel key, List.filter_cons]
    by_cases hfor : i.record.model = model ∧ i.record.id = key
    · have hisFor : Item.isFor model key i = true := decide_eq_true hfor
      rw [if_pos hfor, if_pos hisFor, List.foldl_cons, hfor.1, hfor.2]
    · have hisFor : Item.isFor model key i = false := decide_eq_false hfor
      rw [if_neg hfor, hisFor]
      rfl

/-- The pass is carried out exactly when every item's model is registered and has a table. -/
theorem applyItems_ok_iff (hkeeps : m.KeepsKeys) (hr : r.Separate) (items : List Item)
    (stats : MergeStats) (db : Database) :
    (∃ stats' db', m.applyItems items stats r db = .ok (stats', db'))
      ↔ ∀ i ∈ items, Database.Writable r db i.record.model := by
  induction items generalizing stats db with
  | nil => simp [applyItems]
  | cons i rest ih =>
    constructor
    · rintro ⟨stats', db', h⟩
      obtain ⟨next, mid, hitem, hrest⟩ := applyItems_cons h
      obtain ⟨hwritable, hwrites⟩ := applyItem_writes hkeeps hr hitem
      have hothers := (ih next mid).1 ⟨stats', db', hrest⟩
      intro x hx
      rcases List.mem_cons.1 hx with rfl | hx
      · exact hwritable
      · exact (hwrites.keeps.writable hr).1 (hothers x hx)
    · intro h
      obtain ⟨next, mid, hitem⟩ :=
        applyItem_of_writable hkeeps hr (h i (List.mem_cons_self ..)) stats
      obtain ⟨-, hwrites⟩ := applyItem_writes hkeeps hr hitem
      simp only [applyItems, hitem, bind, Except.bind]
      exact (ih next mid).2 fun x hx =>
        (hwrites.keeps.writable hr).2 (h x (List.mem_cons_of_mem _ hx))

theorem applyItems_counts (h : m.applyItems items stats r db = .ok (stats', db')) :
    stats'.upserted + stats'.deleted + stats'.stale
        = stats.upserted + stats.deleted + stats.stale + items.length
      ∧ (m.policy = .arrivalOrder → stats'.stale = stats.stale) := by
  induction items generalizing stats db with
  | nil =>
    cases h
    exact ⟨rfl, fun _ => rfl⟩
  | cons i rest ih =>
    obtain ⟨next, mid, hitem, hrest⟩ := applyItems_cons h
    obtain ⟨hsum, hstale⟩ := applyItem_counts hitem
    obtain ⟨hsum', hstale'⟩ := ih hrest
    refine ⟨?_, fun hpolicy => (hstale' hpolicy).trans (hstale hpolicy)⟩
    rw [hsum', hsum, List.length_cons]
    omega

/-! ## Items of one identifier -/

/-- In the order of arrival the last item decides. -/
theorem foldl_rowAfter_arrivalOrder (hpolicy : m.policy = .arrivalOrder) (items : List Item)
    (row : Option Row) :
    items.foldl m.rowAfter row = (items.getLast?.map m.rowOf).getD row := by
  induction items using List.reverseRecOn with
  | nil => rfl
  | append_singleton before i _ =>
    rw [List.foldl_append, List.foldl_cons, List.foldl_nil, rowAfter_arrivalOrder hpolicy]
    simp

theorem isStale_of_passesOver (h : m.passesOver row i = true) :
    m.policy = .versionChecked ∧ ∃ version, row.map Row.version = some version
      ∧ i.metadata.version < version := by
  obtain ⟨hpolicy, hstale⟩ := of_decide_eq_true h
  refine ⟨hpolicy, ?_⟩
  cases hversion : row.map Row.version with
  | none => simp [hversion, isStale] at hstale
  | some version => exact ⟨version, rfl, by simpa [hversion, isStale] using hstale⟩

theorem passesOver_of_lt (hpolicy : m.policy = .versionChecked) {version : Int}
    (hrow : row.map Row.version = some version) (h : i.metadata.version < version) :
    m.passesOver row i = true := by
  refine decide_eq_true ⟨hpolicy, ?_⟩
  rw [hrow]
  exact decide_eq_true h

theorem version_rowOf (h : i.isTombstone = false) :
    (m.rowOf i).map Row.version = some i.metadata.version := by
  simp [rowOf, h]

/-- The version that items leave is at most that of the row they started from, or at most the
one that they leave over any other row. -/
theorem version_foldl_rowAfter (items : List Item) (row row' : Option Row) {version : Int}
    (h : (items.foldl m.rowAfter row').map Row.version = some version) :
    (∃ start, row'.map Row.version = some start ∧ version ≤ start)
      ∨ ∃ other, (items.foldl m.rowAfter row).map Row.version = some other ∧ version ≤ other := by
  induction items using List.reverseRecOn generalizing version with
  | nil => exact .inl ⟨version, h, Int.le_refl _⟩
  | append_singleton before i ih =>
    rw [List.foldl_append, List.foldl_cons, List.foldl_nil] at h ⊢
    rcases Bool.eq_false_or_eq_true i.isTombstone with htomb | hlive
    · simp [rowAfter_tombstone htomb] at h
    rcases Bool.eq_false_or_eq_true (m.passesOver (before.foldl m.rowAfter row') i) with
      hpassed | hkept
    · rw [rowAfter_passedOver hlive hpassed] at h
      obtain ⟨hpolicy, found, hfound, hlt⟩ := isStale_of_passesOver hpassed
      cases h.symm.trans hfound
      rcases ih h with hstart | ⟨other, hother, hle⟩
      · exact .inl hstart
      · -- The other row is newer than the item as well.
        have hpassed' := passesOver_of_lt hpolicy hother (Int.lt_of_lt_of_le hlt hle)
        exact .inr ⟨other, by rw [rowAfter_passedOver hlive hpassed', hother], hle⟩
    · rw [rowAfter_of_not_passedOver hkept, version_rowOf hlive] at h
      cases h
      rcases Bool.eq_false_or_eq_true (m.passesOver (before.foldl m.rowAfter row) i) with
        hpassed' | hkept'
      · obtain ⟨-, other, hother, hlt⟩ := isStale_of_passesOver hpassed'
        exact .inr ⟨other, by rw [rowAfter_passedOver hlive hpassed', hother], Int.le_of_lt hlt⟩
      · exact .inr ⟨_, by rw [rowAfter_of_not_passedOver hkept', version_rowOf hlive],
          Int.le_refl _⟩

/-- Items that are applied again, over a row of the version that they have left, leave the same
row again, unless they were all passed over both times. -/
theorem foldl_rowAfter_again (items : List Item) {row row' : Option Row}
    (h : row'.map Row.version = (items.foldl m.rowAfter row).map Row.version) :
    items.foldl m.rowAfter row' = items.foldl m.rowAfter row
      ∨ (items.foldl m.rowAfter row = row ∧ items.foldl m.rowAfter row' = row') := by
  induction items using List.reverseRecOn with
  | nil => exact .inr ⟨rfl, rfl⟩
  | append_singleton before i ih =>
    rw [List.foldl_append, List.foldl_cons, List.foldl_nil] at h
    rw [List.foldl_append, List.foldl_append, List.foldl_cons, List.foldl_nil, List.foldl_cons,
      List.foldl_nil]
    rcases Bool.eq_false_or_eq_true i.isTombstone with htomb | hlive
    · exact .inl (by rw [rowAfter_tombstone htomb, rowAfter_tombstone htomb])
    rcases Bool.eq_false_or_eq_true (m.passesOver (before.foldl m.rowAfter row) i) with
      hpassed | hkept
    · rw [rowAfter_passedOver hlive hpassed] at h ⊢
      rcases ih h with hsame | ⟨hold, hold'⟩
      · exact .inl (by rw [hsame, rowAfter_passedOver hlive hpassed])
      · refine .inr ⟨hold, ?_⟩
        rw [hold'] at *
        rw [hold] at hpassed h
        rw [rowAfter_passedOver hlive ((passesOver_congr h i).trans hpassed)]
    · -- The item is written the first time. Nothing newer is in its way the second time.
      rw [rowAfter_of_not_passedOver hkept, version_rowOf hlive] at h
      refine .inl ?_
      rcases Bool.eq_false_or_eq_true (m.passesOver (before.foldl m.rowAfter row') i) with
        hpassed' | hkept'
      · obtain ⟨hpolicy, found, hfound, hlt⟩ := isStale_of_passesOver hpassed'
        rcases version_foldl_rowAfter before row row' hfound with
          ⟨start, hstart, hle⟩ | ⟨other, hother, hle⟩
        · cases h.symm.trans hstart
          exact absurd hlt (Int.not_lt.2 hle)
        · have hpassed := passesOver_of_lt hpolicy hother (Int.lt_of_lt_of_le hlt hle)
          rw [hkept] at hpassed
          cases hpassed
      · rw [rowAfter_of_not_passedOver hkept, rowAfter_of_not_passedOver hkept']

end Merger

end Replica
