/-
Replica.Proofs.Cycle.MergeWork — a merge is the work of two transactions.

Each pass of a merge calls the operations on rows one after the other, so it is work in the form
of `Work`: the first pass gives up at the first call that is refused (`run_applyItems`), the
second puts up with refusals (`run_applyResolved`). What holds of all work holds of merges, and
a store that merges has a content that it can have (`Store.Reached.merge`).
-/
import Replica.Proofs.Cycle.SecondPass
import Replica.Proofs.Store.Tables

namespace Replica

namespace Work

variable {α : Type}

/-! ## The first pass -/

/-- Go on with the answer of a call, or give up. -/
def orFail {β : Type} (next : β → Work α) : Except StoreError β → Work α
  | .ok answer => next answer
  | .error e => failed e

/-- Write the record of an item, then go on. -/
def upsert (m : Merger) (i : Item) (next : Work α) : Work α :=
  save ((m.hook.getD id) i.record) i.metadata.version (orFail fun _ => next)

/-- Apply items one by one until one is refused. -/
def applyItems (m : Merger) : List Item → MergeStats → Work MergeStats
  | [], stats => done stats
  | i :: rest, stats =>
    let written := upsert m i (applyItems m rest { stats with upserted := stats.upserted + 1 })
    if i.isTombstone then
      delete i.record.model i.record.id
        (orFail fun _ => applyItems m rest { stats with deleted := stats.deleted + 1 })
    else
      match m.policy with
      | .arrivalOrder => written
      | .versionChecked =>
        versionOf i.record.model i.record.id (orFail fun stored =>
          if Merger.isStale stored i then
            applyItems m rest { stats with stale := stats.stale + 1 }
          else written)

theorem run_upsert (m : Merger) (i : Item) (next : Work α) (r : Registry) (db : Database) :
    (upsert m i next).run r db
      = (db.save r ((m.hook.getD id) i.record) i.metadata.version).bind (next.run r) := by
  rw [upsert, run]
  cases db.save r ((m.hook.getD id) i.record) i.metadata.version <;> rfl

theorem run_applyItems (m : Merger) (items : List Item) (stats : MergeStats) :
    (applyItems m items stats).run = m.applyItems items stats := by
  funext r db
  induction items generalizing stats db with
  | nil => rfl
  | cons i rest ih =>
    have hwritten : ∀ db : Database,
        (upsert m i (applyItems m rest { stats with upserted := stats.upserted + 1 })).run r db
          = (m.upsert i stats r db).bind fun next => m.applyItems rest next.1 r next.2 := by
      intro db
      rw [run_upsert, Merger.upsert]
      cases db.save r ((m.hook.getD id) i.record) i.metadata.version with
      | error e => rfl
      | ok after => exact ih _ after
    rw [applyItems, Merger.applyItems, Merger.applyItem]
    by_cases htomb : i.isTombstone = true
    · rw [if_pos htomb, if_pos htomb, run]
      cases db.delete r i.record.model i.record.id with
      | error e => rfl
      | ok answer => exact ih _ answer.2
    · rw [if_neg htomb, if_neg htomb]
      cases m.policy with
      | arrivalOrder => exact hwritten db
      | versionChecked =>
        dsimp only
        rw [run]
        cases db.versionOf r i.record.model i.record.id with
        | error e => rfl
        | ok stored =>
          rw [orFail]
          by_cases hstale : Merger.isStale stored i = true
          · rw [if_pos hstale, ih]
            simp [hstale, bind, Except.bind, pure, Except.pure]
          · rw [if_neg hstale, hwritten]
            simp [hstale, bind, Except.bind]

/-! ## The second pass -/

/-- Apply the first overlay of each record, then go on with the count of updated records. -/
def applyOverlays (target : String) (next : Nat → Work α) :
    List Record → List String → List String → Nat → Work α
  | [], _, _, count => next count
  | overlay :: rest, seenOverlays, seenBases, count =>
    if seenOverlays.contains overlay.id then
      applyOverlays target next rest seenOverlays seenBases count
    else
      let seenOverlays := overlay.id :: seenOverlays
      match overlay.materialId? with
      | none => applyOverlays target next rest seenOverlays seenBases count
      | some base =>
        if seenBases.contains base then
          applyOverlays target next rest seenOverlays seenBases count
        else
          let seenBases := base :: seenBases
          match Merger.patchOf overlay with
          | [] => applyOverlays target next rest seenOverlays seenBases count
          | patch =>
            updateFields target base patch fun
              | .ok true => applyOverlays target next rest seenOverlays seenBases (count + 1)
              | .ok false => applyOverlays target next rest seenOverlays seenBases count
              | .error _ => applyOverlays target next rest seenOverlays seenBases count

/-- Apply the overlays of one job after the other. -/
def applyResolved : List Merger.Resolved → Nat → Work Nat
  | [], count => done count
  | job :: rest, count => applyOverlays job.target (applyResolved rest) job.candidates [] [] count

theorem run_applyOverlays (target : String) (next : Nat → Work α) (r : Registry)
    (overlays : List Record) (seenOverlays seenBases : List String) (count : Nat) (db : Database) :
    (applyOverlays target next overlays seenOverlays seenBases count).run r db
      = (next (Merger.applyOverlays target r overlays seenOverlays seenBases count db).1).run r
          (Merger.applyOverlays target r overlays seenOverlays seenBases count db).2 := by
  induction overlays generalizing seenOverlays seenBases count db with
  | nil => rfl
  | cons overlay rest ih =>
    rw [applyOverlays, Merger.applyOverlays]
    by_cases hseen : seenOverlays.contains overlay.id = true
    · rw [if_pos hseen, if_pos hseen]
      exact ih ..
    · rw [if_neg hseen, if_neg hseen]
      cases overlay.materialId? with
      | none => exact ih ..
      | some base =>
        dsimp only
        by_cases hmet : seenBases.contains base = true
        · rw [if_pos hmet, if_pos hmet]
          exact ih ..
        · rw [if_neg hmet, if_neg hmet]
          cases Merger.patchOf overlay with
          | nil => exact ih ..
          | cons e patch =>
            dsimp only
            rw [run]
            cases db.updateFields r target base (e :: patch) with
            | error e => exact ih ..
            | ok result =>
              obtain ⟨answer, after⟩ := result
              cases answer <;> exact ih ..

theorem run_applyResolved (resolved : List Merger.Resolved) (count : Nat) :
    (applyResolved resolved count).run = Merger.applyResolved resolved count := by
  funext r db
  induction resolved generalizing count db with
  | nil => rfl
  | cons job rest ih =>
    rw [applyResolved, run_applyOverlays, ih]
    rfl

end Work

/-! ## The content of a store that merges -/

namespace Store

variable {r : Registry} {db : Database}

/-- A store has a content that it can have after a transaction, carried out or not. -/
theorem Reached.transact {α : Type} (h : Reached r db) (w : Work α) :
    ∃ answer after, Store.transact w.run (Store.opened r db) = (answer, Store.opened r after)
      ∧ Reached r after := by
  cases hrun : w.run r db with
  | error e =>
    have hanswer : Store.transact w.run (Store.opened r db) = (.error e, Store.opened r db) := by
      simp only [Store.transact, hrun]
    exact ⟨_, _, hanswer, h⟩
  | ok result =>
    have hanswer : Store.transact w.run (Store.opened r db)
        = (.ok result.1, Store.opened r result.2) := by
      simp only [Store.transact, hrun]
    exact ⟨_, _, hanswer, .transacted h hanswer⟩

/-- A store has a content that it can have after a second pass. -/
theorem Reached.secondPass (h : Reached r db) (m : Merger) (jobs : List Merger.OverlayJob) :
    ∃ count after, m.secondPass jobs (Store.opened r db) = (count, Store.opened r after)
      ∧ Reached r after := by
  rw [Merger.secondPass]
  split
  · exact ⟨0, db, rfl, h⟩
  · have hresolved : (m.resolve jobs (Store.opened r db)).2 = Store.opened r db :=
      (m.resolve_content jobs (Store.opened r db)).1
    obtain ⟨answer, after, htransact, hafter⟩ :=
      h.transact (Work.applyResolved (m.resolve jobs (Store.opened r db)).1 0)
    rw [Work.run_applyResolved] at htransact
    have hpass : LocalStore.transact (Merger.applyResolved (m.resolve jobs (Store.opened r db)).1 0)
        (Store.opened r db) = (answer, Store.opened r after) := htransact
    dsimp only
    rw [hresolved, hpass]
    cases answer with
    | error e => exact ⟨0, after, rfl, hafter⟩
    | ok count => exact ⟨count, after, rfl, hafter⟩

/-- A store has a content that it can have after a merge, whatever becomes of it. -/
theorem Reached.merge (h : Reached r db) (m : Merger) (groups : List ModelGroup) :
    ∃ answer after, m.merge groups (Store.opened r db) = (answer, Store.opened r after)
      ∧ Reached r after := by
  rw [Merger.merge]
  cases Merger.unknownGroup? m.registry groups with
  | some model => exact ⟨_, db, rfl, h⟩
  | none =>
    obtain ⟨first, settled, hfirst, hsettled⟩ :=
      h.transact (Work.applyItems m (Merger.itemsOf groups) Merger.noStats)
    rw [Work.run_applyItems] at hfirst
    have htransact : LocalStore.transact (m.firstPass groups) (Store.opened r db)
        = (first, Store.opened r settled) := hfirst
    dsimp only
    rw [htransact]
    cases first with
    | error e => exact ⟨_, settled, rfl, hsettled⟩
    | ok stats =>
      obtain ⟨count, after, hsecond, hafter⟩ :=
        hsettled.secondPass m (Merger.jobs m.registry groups)
      dsimp only
      rw [hsecond]
      exact ⟨_, after, rfl, hafter⟩

end Store

end Replica
