/-
Replica.Proofs.Store.Calls — two ways of carrying out calls, side by side.

The author of a transaction sees nothing but the answers to his calls. Whatever carries out
calls (`Calls`) can run his work, and the answers that he gets on the way are part of what
comes out (`Work.carryOut`). The database is one way of carrying out calls, and running work on
it is what `Work.run` does (`Work.run_eq`).

One way of carrying out calls simulates another if, from states that are related, every call
has the same answer and leaves related states (`Simulates`). Then all work has the same answers
and the same ending (`Simulates.carryOut`), and so has any number of transactions
(`inTurn_alike`).
-/
import Replica.Proofs.Store.Work

namespace Replica

/-! ## Calls -/

/-- What a call of a transaction is answered. -/
inductive Answer where
  | saved (result : Except StoreError Unit)
  | deleted (result : Except StoreError Bool)
  | got (result : Except StoreError (Option Record))
  | version (result : Except StoreError (Option Int))
  | updated (result : Except StoreError Bool)

/-- A way of carrying out calls. -/
structure Calls (σ : Type) where
  save : Record → Int → σ → Except StoreError Unit × σ
  delete : String → String → σ → Except StoreError Bool × σ
  get : String → String → σ → Except StoreError (Option Record)
  versionOf : String → String → σ → Except StoreError (Option Int)
  updateFields : String → String → List (String × Json) → σ → Except StoreError Bool × σ

variable {σ τ α : Type}

/-- Carry out the calls of a transaction: their answers, and the value it ends with and what
follows, or the error it ends with. -/
def Work.carryOut (calls : Calls σ) : Work α → σ → List Answer × Except StoreError (α × σ)
  | done value, s => ([], .ok (value, s))
  | failed e, _ => ([], .error e)
  | save record version next, s =>
    let (result, after) := calls.save record version s
    let (answers, ending) := (next result).carryOut calls after
    (.saved result :: answers, ending)
  | delete model id next, s =>
    let (result, after) := calls.delete model id s
    let (answers, ending) := (next result).carryOut calls after
    (.deleted result :: answers, ending)
  | get model id next, s =>
    let result := calls.get model id s
    let (answers, ending) := (next result).carryOut calls s
    (.got result :: answers, ending)
  | versionOf model id next, s =>
    let result := calls.versionOf model id s
    let (answers, ending) := (next result).carryOut calls s
    (.version result :: answers, ending)
  | updateFields model id patch next, s =>
    let (result, after) := calls.updateFields model id patch s
    let (answers, ending) := (next result).carryOut calls after
    (.updated result :: answers, ending)

/-! ## Transactions -/

/-- What a transaction leaves: what follows it, or what was there if it ends with an error. -/
def settle (s : σ) : Except StoreError (α × σ) → Except StoreError α × σ
  | .ok (value, after) => (.ok value, after)
  | .error e => (.error e, s)

/-- A transaction: the answers of its calls, how it ends, and what it leaves. -/
def Calls.transact (calls : Calls σ) (w : Work α) (s : σ) :
    (List Answer × Except StoreError α) × σ :=
  let (answers, ending) := w.carryOut calls s
  let (result, after) := settle s ending
  ((answers, result), after)

/-- One step after the other. -/
def inTurn {ι β : Type} (step : ι → σ → β × σ) : List ι → σ → List β × σ
  | [], s => ([], s)
  | i :: rest, s =>
    let (result, after) := step i s
    let (results, last) := inTurn step rest after
    (result :: results, last)

/-! ## Simulation -/

section Simulation

/-- The same answer, and related states. -/
def Alike {β : Type} (R : σ → τ → Prop) (x : β × σ) (y : β × τ) : Prop :=
  x.1 = y.1 ∧ R x.2 y.2

/-- Every call is answered alike, from states that are related to states that are. -/
structure Simulates (R : σ → τ → Prop) (calls : Calls σ) (plain : Calls τ) : Prop where
  save : ∀ {s t}, R s t → ∀ record version,
    Alike R (calls.save record version s) (plain.save record version t)
  delete : ∀ {s t}, R s t → ∀ model id, Alike R (calls.delete model id s) (plain.delete model id t)
  get : ∀ {s t}, R s t → ∀ model id, calls.get model id s = plain.get model id t
  versionOf : ∀ {s t}, R s t → ∀ model id, calls.versionOf model id s = plain.versionOf model id t
  updateFields : ∀ {s t}, R s t → ∀ model id patch,
    Alike R (calls.updateFields model id patch s) (plain.updateFields model id patch t)

/-- Work that ends with the same value in related states, or with the same error. -/
inductive EndsAlike (R : σ → τ → Prop) :
    Except StoreError (α × σ) → Except StoreError (α × τ) → Prop
  | ok (value : α) {s : σ} {t : τ} (h : R s t) : EndsAlike R (.ok (value, s)) (.ok (value, t))
  | error (e : StoreError) : EndsAlike R (.error e) (.error e)

variable {R : σ → τ → Prop} {calls : Calls σ} {plain : Calls τ}

theorem Simulates.carryOut (h : Simulates R calls plain) (w : Work α) {s : σ} {t : τ}
    (hst : R s t) : (w.carryOut calls s).1 = (w.carryOut plain t).1 ∧
      EndsAlike R (w.carryOut calls s).2 (w.carryOut plain t).2 := by
  induction w generalizing s t with
  | done value => exact ⟨rfl, .ok value hst⟩
  | failed e => exact ⟨rfl, .error e⟩
  | save record version next ih =>
    obtain ⟨hsame, hafter⟩ := h.save hst record version
    obtain ⟨hanswers, hending⟩ := ih _ hafter
    simp only [Work.carryOut, hsame] at hanswers hending ⊢
    exact ⟨congrArg _ hanswers, hending⟩
  | delete model id next ih =>
    obtain ⟨hsame, hafter⟩ := h.delete hst model id
    obtain ⟨hanswers, hending⟩ := ih _ hafter
    simp only [Work.carryOut, hsame] at hanswers hending ⊢
    exact ⟨congrArg _ hanswers, hending⟩
  | get model id next ih =>
    obtain ⟨hanswers, hending⟩ := ih (calls.get model id s) hst
    simp only [Work.carryOut, h.get hst] at hanswers hending ⊢
    exact ⟨congrArg _ hanswers, hending⟩
  | versionOf model id next ih =>
    obtain ⟨hanswers, hending⟩ := ih (calls.versionOf model id s) hst
    simp only [Work.carryOut, h.versionOf hst] at hanswers hending ⊢
    exact ⟨congrArg _ hanswers, hending⟩
  | updateFields model id patch next ih =>
    obtain ⟨hsame, hafter⟩ := h.updateFields hst model id patch
    obtain ⟨hanswers, hending⟩ := ih _ hafter
    simp only [Work.carryOut, hsame] at hanswers hending ⊢
    exact ⟨congrArg _ hanswers, hending⟩

/-- What is left is related, whether a transaction takes effect or is taken back. -/
theorem settle_alike {s : σ} {t : τ} (hst : R s t) {x : Except StoreError (α × σ)}
    {y : Except StoreError (α × τ)} (h : EndsAlike R x y) : Alike R (settle s x) (settle t y) := by
  cases h with
  | ok value hafter => exact ⟨rfl, hafter⟩
  | error e => exact ⟨rfl, hst⟩

/-- A transaction has the same outcome and leaves related states. -/
theorem Simulates.transact (h : Simulates R calls plain) (w : Work α) {s : σ} {t : τ}
    (hst : R s t) : Alike R (calls.transact w s) (plain.transact w t) := by
  obtain ⟨hanswers, hending⟩ := h.carryOut w hst
  obtain ⟨hresult, hafter⟩ := settle_alike hst hending
  exact ⟨by simp only [Calls.transact, hanswers, hresult], hafter⟩

/-- Steps that are alike one by one are alike in turn. -/
theorem inTurn_alike {ι β : Type} {step : ι → σ → β × σ} {plainStep : ι → τ → β × τ}
    (h : ∀ i {s t}, R s t → Alike R (step i s) (plainStep i t)) (list : List ι) {s : σ} {t : τ}
    (hst : R s t) : Alike R (inTurn step list s) (inTurn plainStep list t) := by
  induction list generalizing s t with
  | nil => exact ⟨rfl, hst⟩
  | cons i rest ih =>
    obtain ⟨hsame, hafter⟩ := h i hst
    obtain ⟨hrest, hlast⟩ := ih hafter
    exact ⟨by simp only [inTurn, hsame, hrest], hlast⟩

end Simulation

/-! ## The database -/

/-- Calls as statements on a database. -/
def Database.calls (r : Registry) : Calls Database where
  save record version db := Work.answered db ((db.save r record version).map ((), ·))
  delete model id db := Work.answered db (db.delete r model id)
  get model id db := db.get r model id
  versionOf model id db := db.versionOf r model id
  updateFields model id patch db := Work.answered db (db.updateFields r model id patch)

/-- Running work is carrying out its calls on the database. -/
theorem Work.run_eq (w : Work α) (r : Registry) (db : Database) :
    w.run r db = (w.carryOut (Database.calls r) db).2 := by
  induction w generalizing db with
  | done value => rfl
  | failed e => rfl
  | save record version next ih => exact ih _ _
  | delete model id next ih => exact ih _ _
  | get model id next ih => exact ih _ _
  | versionOf model id next ih => exact ih _ _
  | updateFields model id patch next ih => exact ih _ _

namespace Store

/-- A transaction on a store: the answers of its calls, how it ends, and the store it leaves. -/
def perform (w : Work α) (s : Store) : (List Answer × Except StoreError α) × Store :=
  let answers :=
    match s with
    | opened r db => (w.carryOut (Database.calls r) db).1
    | failed _ _ => []
  let (result, after) := s.transact w.run
  ((answers, result), after)

/-- A store carries out transactions on its content. -/
theorem perform_opened (w : Work α) (r : Registry) (db : Database) :
    perform w (opened r db) = (((Database.calls r).transact w db).1,
      opened r ((Database.calls r).transact w db).2) := by
  rw [perform, transact, Work.run_eq, Calls.transact]
  rcases w.carryOut (Database.calls r) db with ⟨answers, e | ⟨value, after⟩⟩ <;> rfl

theorem inTurn_perform (ws : List (Work α)) (r : Registry) (db : Database) :
    inTurn perform ws (opened r db) = ((inTurn (Database.calls r).transact ws db).1,
      opened r (inTurn (Database.calls r).transact ws db).2) := by
  have hstep (w : Work α) {s : Store} {db : Database} (hs : s = opened r db) :
      Alike (fun s db => s = opened r db) (perform w s) ((Database.calls r).transact w db) := by
    rw [hs, perform_opened]
    exact ⟨rfl, rfl⟩
  obtain ⟨hsame, hlast⟩ := inTurn_alike hstep ws rfl
  exact Prod.ext hsame hlast

end Store

end Replica
