/-
Replica.Proofs.Seed.Admission — calls on a store that is being opened.

A store is handed out before it is opened. Calls are made on it and on its clones at any time,
and they wait at the gate while the opening goes through its stages (`Doorway`). What happens
next is left open (`Step`): the opening proceeds, one of its stages breaks down, a call is made,
a waiting call finds the gate settled, a call that was let in works, or a gate that was settled
is marked again.

The main statement is `calls_guarded`. Whatever the order, no call works on the database unless
the gate is open, and then the connection is in its place and the listener was told the outcome
of the seeding; a stage that fails is the answer to every call; and a gate that was settled
stays as it is. What carries this is how far the opening has come (`Progress`): the connection
is put in its place, then the listener is told, and only then the gate opens.
-/
import Replica.Seed.Opening

namespace Replica

/-! ## Stages of an opening -/

/-- Whether the stage comes before the announcement; such a stage can fail. -/
def OpeningStage.isUnannounced : OpeningStage → Bool
  | seed | connect _ | createTables _ _ | fillSlot _ _ => true
  | announce _ | openGate | ended => false

/-- Whether the completion is still to be announced. -/
def OpeningStage.isUntold : OpeningStage → Bool
  | seed | connect _ | createTables _ _ | fillSlot _ _ | announce _ => true
  | openGate | ended => false

/-- The outcome of the seeding that is passed on to the announcement. -/
def OpeningStage.outcome? : OpeningStage → Option SeedOutcome
  | connect outcome | createTables outcome _ | fillSlot outcome _ | announce outcome => some outcome
  | seed | openGate | ended => none

namespace Opening

variable {σ : Type} [SettingsStore σ]

/-- The error with which the next stage is going to fail, if it is. -/
def fault? (o : Opening σ) : Option StoreError :=
  match o.stage with
  | .seed => error? (o.seeder.run o.site).1
  | .connect _ => error? (Files.connect o.seeder.databasePath o.site.files).1
  | .createTables _ c => error? (FileStore.create o.registry c o.site.files).1
  | _ => none
where
  error? {β : Type} : Except StoreError β → Option StoreError
    | .ok _ => none
    | .error e => some e

/-- What a stage does: it goes over to the next one, or it fails. -/
inductive Advance (o : Opening σ) : Option StoreError → Opening σ → Prop
  | seeded {outcome : SeedOutcome} {seeder : Seeder} {site : Site σ} (stage : o.stage = .seed)
      (run : o.seeder.run o.site = (.ok outcome, seeder, site)) :
      Advance o none { o with seeder := seeder, site := site, stage := .connect outcome }
  | connected {outcome : SeedOutcome} {c : Connection} {files : Files}
      (stage : o.stage = .connect outcome) :
      Advance o none { o.withFiles files with stage := .createTables outcome c }
  | created {outcome : SeedOutcome} {c : Connection} {store : FileStore} {files : Files}
      (stage : o.stage = .createTables outcome c) :
      Advance o none { o.withFiles files with stage := .fillSlot outcome store }
  | filled {outcome : SeedOutcome} {store : FileStore} (stage : o.stage = .fillSlot outcome store) :
      Advance o none { o with slot := some store, stage := .announce outcome }
  | announced {outcome : SeedOutcome} (stage : o.stage = .announce outcome) :
      Advance o none { o with
        seeder := (o.seeder.announce outcome).2,
        told := o.told ++ (o.seeder.announce outcome).1.toList, stage := .openGate }
  | unlocked (stage : o.stage = .openGate) :
      Advance o none { o with gate := o.gate.markReady, stage := .ended }
  | rested (stage : o.stage = .ended) : Advance o none o
  | failed {e : StoreError} {seeder : Seeder} {site : Site σ}
      (stage : o.stage.isUnannounced = true) :
      Advance o (some e) ({ o with seeder := seeder, site := site }.fail e)

theorem step_advance (o : Opening σ) : o.Advance o.fault? o.step := by
  rw [fault?, step]
  cases hstage : o.stage with
  | seed =>
    dsimp only
    rcases hrun : o.seeder.run o.site with ⟨e | outcome, seeder, site⟩
    · rw [← hstage]
      exact .failed (by rw [hstage]; rfl)
    · exact .seeded hstage hrun
  | connect outcome =>
    dsimp only
    rcases Files.connect o.seeder.databasePath o.site.files with ⟨e | c, files⟩
    · exact .failed (by rw [hstage]; rfl)
    · exact .connected hstage
  | createTables outcome c =>
    dsimp only
    rcases FileStore.create o.registry c o.site.files with ⟨e | store, files⟩
    · exact .failed (by rw [hstage]; rfl)
    · exact .created hstage
  | fillSlot outcome store => exact .filled hstage
  | announce outcome => exact .announced hstage
  | openGate => exact .unlocked hstage
  | ended => exact .rested hstage

theorem steps_succ (o : Opening σ) (n : Nat) : o.steps (n + 1) = (o.steps n).step := by
  induction n generalizing o with
  | zero => rfl
  | succ n ih => exact ih o.step

end Opening

/-! ## Calls -/

/-- Work on an open store and its files. -/
abbrev StoreWork (α : Type) := HeldStore → Except StoreError α × HeldStore

/-- What is asked of a store. -/
inductive StoreCall (α : Type) where
  /-- Whether it is ready. -/
  | ready
  | work (run : StoreWork α)

/-- How far a call has come. -/
inductive CallStage (α : Type) where
  /-- It waits at the gate. -/
  | waiting (call : StoreCall α)
  /-- It was let in to work. -/
  | admitted (run : StoreWork α)
  /-- It has an answer; without a value if it only asked whether the store is ready. -/
  | answered (answer : Except StoreError (Option α))

/-- A call that finds the gate settled. -/
def StoreCall.released {α : Type} : StoreCall α → Except StoreError Unit → CallStage α
  | _, .error e => .answered (.error e)
  | ready, .ok () => .answered (.ok none)
  | work run, .ok () => .admitted run

/-- A store that is being opened and the calls on it, in the order in which they were made. A
clone of the store has the same gate and the same place for the connection. -/
structure Doorway (σ α : Type) where
  opening : Opening σ
  calls : List (CallStage α)

/-- What can happen next. -/
inductive DoorwayEvent where
  /-- The opening goes over to its next stage. -/
  | proceeded
  /-- A stage of the opening fails. -/
  | failed (e : StoreError)
  /-- A call is made. -/
  | called
  /-- A call that waits finds the gate settled. -/
  | released (call : Nat)
  /-- A call that was let in works on the database. -/
  | worked (call : Nat)
  /-- A call that was let in finds no connection. -/
  | missed (call : Nat)
  /-- A gate that was settled is marked again. -/
  | marked
  deriving DecidableEq

/-- Whether it is something that the opening does. -/
def DoorwayEvent.isOpening : DoorwayEvent → Bool
  | proceeded | failed _ => true
  | _ => false

namespace Doorway

variable {σ α : Type} [SettingsStore σ]

def start (site : Site σ) (registry : Registry) (seeder : Seeder) : Doorway σ α :=
  ⟨.start site registry seeder, []⟩

/-- Put a call at another stage. -/
def put (w : Doorway σ α) (call : Nat) (stage : CallStage α) : Doorway σ α :=
  { w with calls := w.calls.set call stage }

/-- A call works on the store in the place of the connection. -/
def work (w : Doorway σ α) (call : Nat) (run : StoreWork α) (store : FileStore) : Doorway σ α :=
  let (answer, held) := run ⟨store, w.opening.site.files⟩
  { w with opening := { w.opening.withFiles held.files with slot := some held.store } }.put call
    (.answered (answer.map some))

/-- One thing that happens. -/
inductive Step : Doorway σ α → DoorwayEvent → Doorway σ α → Prop
  | proceed {w : Doorway σ α} (h : w.opening.fault? = none) :
      Step w .proceeded { w with opening := w.opening.step }
  | fail {w : Doorway σ α} {e : StoreError} (h : w.opening.fault? = some e) :
      Step w (.failed e) { w with opening := w.opening.step }
  /-- A stage may fail for reasons of its own, and may leave anything behind. -/
  | breakDown {w : Doorway σ α} (h : w.opening.stage.isUnannounced = true) (seeder : Seeder)
      (site : Site σ) (e : StoreError) :
      Step w (.failed e)
        { w with opening := { w.opening with seeder := seeder, site := site }.fail e }
  | call (w : Doorway σ α) (call : StoreCall α) :
      Step w .called { w with calls := w.calls ++ [.waiting call] }
  | release {w : Doorway σ α} {i : Nat} {call : StoreCall α} {outcome : Except StoreError Unit}
      (hcall : w.calls[i]? = some (.waiting call)) (hgate : w.opening.gate.outcome? = some outcome) :
      Step w (.released i) (w.put i (call.released outcome))
  | work {w : Doorway σ α} {i : Nat} {run : StoreWork α} {store : FileStore}
      (hcall : w.calls[i]? = some (.admitted run)) (hslot : w.opening.slot = some store) :
      Step w (.worked i) (w.work i run store)
  | miss {w : Doorway σ α} {i : Nat} {run : StoreWork α}
      (hcall : w.calls[i]? = some (.admitted run)) (hslot : w.opening.slot = none) :
      Step w (.missed i) (w.put i (.answered (.error (.initialization "store is not open"))))
  | markReady {w : Doorway σ α} (h : w.opening.gate ≠ .pending) :
      Step w .marked { w with opening := { w.opening with gate := w.opening.gate.markReady } }
  | markFailed {w : Doorway σ α} (h : w.opening.gate ≠ .pending) (reason : String) :
      Step w .marked
        { w with opening := { w.opening with gate := w.opening.gate.markFailed reason } }

/-- One thing after the other. -/
inductive Run (w : Doorway σ α) : List DoorwayEvent → Doorway σ α → Prop
  | start : Run w [] w
  | step {events : List DoorwayEvent} {event : DoorwayEvent} {w' w'' : Doorway σ α}
      (h : Run w events w') (hstep : Step w' event w'') : Run w (events ++ [event]) w''

theorem Run.trans {w w' w'' : Doorway σ α} {first second : List DoorwayEvent}
    (h : Run w first w') (h' : Run w' second w'') : Run w (first ++ second) w'' := by
  induction h' with
  | start => simpa using h
  | step _ hstep ih => simpa [List.append_assoc] using ih.step hstep

/-! ## How far an opening has come -/

variable {site : Site σ} {seeder : Seeder} {events : List DoorwayEvent} {w w' : Doorway σ α}
  {e : StoreError}

/-- Everything waits: the gate is pending, and no call was let in or answered. -/
structure Waits (w : Doorway σ α) : Prop where
  gate : w.opening.gate = .pending
  calls : ∀ c ∈ w.calls, ∃ call, c = .waiting call

/-- The listener of the opening was told this outcome, unless it was told another one before. -/
def Told (seeder : Seeder) (outcome : SeedOutcome) (o : Opening σ) : Prop :=
  o.told = if seeder.announced then [] else [outcome]

/-- How far an opening has come from a site, by its stage. -/
structure Progress (site : Site σ) (seeder : Seeder) (w : Doorway σ α) : Prop where
  /-- Everything waits until the gate is opened. -/
  waits : w.opening.stage ≠ .ended → w.Waits
  opened : w.opening.stage = .ended → w.opening.gate = .ready
  /-- The seeder starts from the site. -/
  seeding : w.opening.stage = .seed → w.opening.site = site ∧ w.opening.seeder = seeder
  /-- Its outcome is passed on to the announcement. -/
  passing : ∀ outcome, w.opening.stage.outcome? = some outcome →
    (seeder.run site).1 = .ok outcome ∧ w.opening.seeder.announced = seeder.announced
  untold : w.opening.stage.isUntold = true → w.opening.told = []
  told : w.opening.stage.isUntold = false →
    ∃ outcome, (seeder.run site).1 = .ok outcome ∧ Told seeder outcome w.opening
  /-- The connection is in its place before the announcement. -/
  filled : w.opening.stage.isUnannounced = false → w.opening.slot.isSome = true

/-- A stage has failed: every call has the error for its answer, or waits for it. -/
structure Failed (e : StoreError) (w : Doorway σ α) : Prop where
  stage : w.opening.stage = .ended
  told : w.opening.told = []
  gate : w.opening.gate = .failed e.message
  calls : ∀ c ∈ w.calls,
    (∃ call, c = .waiting call) ∨ c = .answered (.error (.initialization e.message))

/-- Either no stage has failed so far, or one has. -/
inductive State (site : Site σ) (seeder : Seeder) (events : List DoorwayEvent) (w : Doorway σ α) :
    Prop
  | sound (progress : Progress site seeder w) (unfailed : ∀ e, .failed e ∉ events)
  | failed {e : StoreError} (failed : Failed e w) (only : ∀ e', .failed e' ∈ events → e' = e)

/-! ## What the opening does -/

/-- A stage that fails leaves its error to every call that waits. -/
theorem Progress.failed (h : Progress site seeder w)
    (hstage : w.opening.stage.isUnannounced = true) (seeder' : Seeder) (site' : Site σ)
    (e : StoreError) :
    Failed e { w with opening := { w.opening with seeder := seeder', site := site' }.fail e } := by
  have hwaits : w.Waits :=
    h.waits fun hended => by simp [hended, OpeningStage.isUnannounced] at hstage
  refine ⟨rfl, h.untold ?_, ?_, fun c hc => .inl (hwaits.calls c hc)⟩
  · cases hcase : w.opening.stage <;> simp_all [OpeningStage.isUnannounced, OpeningStage.isUntold]
  · simp only [Opening.fail, hwaits.gate]
    rfl

theorem announced_run (seeder : Seeder) (site : Site σ) :
    (seeder.run site).2.1.announced = seeder.announced := by
  rw [Seeder.run]
  split
  · rfl
  · split <;> rfl

/-- A stage that passes the outcome on. -/
theorem Progress.pass {w : Doorway σ α} {next : Opening σ} {outcome : SeedOutcome}
    (hwaits : w.Waits) (htold : w.opening.told = []) (hgate : next.gate = w.opening.gate)
    (hsame : next.told = w.opening.told) (hstage : next.stage.outcome? = some outcome)
    (hrun : (seeder.run site).1 = .ok outcome) (hseeder : next.seeder.announced = seeder.announced)
    (hslot : next.stage.isUnannounced = false → next.slot.isSome = true) :
    Progress site seeder { w with opening := next } where
  waits _ := ⟨hgate.trans hwaits.gate, hwaits.calls⟩
  opened hended := by
    simp [show next.stage = .ended from hended, OpeningStage.outcome?] at hstage
  seeding hseed := by
    simp [show next.stage = .seed from hseed, OpeningStage.outcome?] at hstage
  passing outcome' h := by
    cases hstage.symm.trans h
    exact ⟨hrun, hseeder⟩
  untold _ := hsame.trans htold
  told h := by
    have h : next.stage.isUntold = false := h
    cases hcase : next.stage <;> simp [hcase, OpeningStage.isUntold, OpeningStage.outcome?] at h hstage
  filled := hslot

/-- The next stage, unless it fails. -/
theorem Progress.proceed (h : Progress site seeder w) (hfault : w.opening.fault? = none) :
    Progress site seeder { w with opening := w.opening.step } := by
  have hadvance := w.opening.step_advance
  rw [hfault] at hadvance
  generalize w.opening.step = next at hadvance
  cases hadvance with
  | @seeded outcome seeder' site' stage hrun =>
    obtain ⟨hsite, hseeder⟩ := h.seeding stage
    have hannounced := announced_run seeder site
    rw [hsite, hseeder] at hrun
    rw [hrun] at hannounced
    exact .pass (h.waits (by simp [stage])) (h.untold (by rw [stage]; rfl)) rfl rfl rfl
      (congrArg Prod.fst hrun) hannounced nofun
  | connected stage | created stage =>
    obtain ⟨hrun, hseeder⟩ := h.passing _ (by rw [stage]; rfl)
    exact .pass (h.waits (by simp [stage])) (h.untold (by rw [stage]; rfl)) rfl rfl rfl hrun hseeder
      nofun
  | filled stage =>
    obtain ⟨hrun, hseeder⟩ := h.passing _ (by rw [stage]; rfl)
    exact .pass (h.waits (by simp [stage])) (h.untold (by rw [stage]; rfl)) rfl rfl rfl hrun hseeder
      fun _ => rfl
  | @announced outcome stage =>
    obtain ⟨hrun, hseeder⟩ := h.passing outcome (by rw [stage]; rfl)
    have hwaits := h.waits (by simp [stage])
    have hslot := h.filled (by rw [stage]; rfl)
    have htold := h.untold (by rw [stage]; rfl)
    refine ⟨fun _ => ⟨hwaits.gate, hwaits.calls⟩, nofun, nofun, nofun, nofun,
      fun _ => ⟨outcome, hrun, ?_⟩, fun _ => hslot⟩
    rw [Told, ← hseeder, htold, Seeder.announce]
    split <;> rfl
  | unlocked stage =>
    have hwaits := h.waits (by simp [stage])
    have htold := h.told (by rw [stage]; rfl)
    have hslot := h.filled (by rw [stage]; rfl)
    refine ⟨fun h => absurd rfl h, fun _ => ?_, nofun, nofun, nofun, fun _ => htold, fun _ => hslot⟩
    simp only [hwaits.gate]
    rfl
  | rested stage => exact h

/-- Before the gate is opened no call has got anywhere. -/
theorem Progress.ended (h : Progress site seeder w) (hw : ¬ w.Waits) :
    w.opening.stage = .ended :=
  Classical.byContradiction fun hstage => hw (h.waits hstage)

/-- Once the opening has ended, the gate, the connection and what the listener was told are all
that matters. -/
theorem Progress.after (h : Progress site seeder w) (hended : w.opening.stage = .ended)
    (hstage : w'.opening.stage = .ended) (hgate : w'.opening.gate = .ready)
    (htold : w'.opening.told = w.opening.told) (hslot : w'.opening.slot.isSome = true) :
    Progress site seeder w' where
  waits hne := absurd hstage hne
  opened _ := hgate
  seeding hseed := by simp [hstage] at hseed
  passing _ h := by simp [hstage, OpeningStage.outcome?] at h
  untold h := by simp [hstage, OpeningStage.isUntold] at h
  told _ := by
    obtain ⟨outcome, hrun, hsame⟩ := h.told (by rw [hended]; rfl)
    exact ⟨outcome, hrun, htold.trans hsame⟩
  filled _ := hslot

/-! ## What happens to a settled gate -/

/-- Nothing that happens changes a gate that was settled. -/
theorem step_settled {event : DoorwayEvent} (hstep : Step w event w')
    (h : w.opening.gate ≠ .pending) : w'.opening.gate = w.opening.gate := by
  have hproceed : w.opening.step.gate = w.opening.gate := by
    have hadvance := w.opening.step_advance
    generalize w.opening.fault? = fault, w.opening.step = next at hadvance
    cases hadvance with
    | unlocked | failed => exact Readiness.settle_of_ne_pending h _
    | _ => rfl
  cases hstep with
  | proceed | fail => exact hproceed
  | breakDown | markReady | markFailed => exact Readiness.settle_of_ne_pending h _
  | call | release | work | miss => rfl

theorem run_settled (h : w.opening.gate ≠ .pending) (hrun : Run w events w') :
    w'.opening.gate = w.opening.gate := by
  induction hrun with
  | start => rfl
  | step _ hstep ih => rw [step_settled hstep (by rwa [ih]), ih]

/-! ## Whatever happens -/

omit [SettingsStore σ] in
/-- A call that is past the gate shows that the opening has ended. -/
theorem not_waits {i : Nat} {run : StoreWork α} (hcall : w.calls[i]? = some (.admitted run)) :
    ¬ w.Waits := by
  intro hw
  obtain ⟨call, h⟩ := hw.calls _ (List.mem_of_getElem? hcall)
  cases h

omit [SettingsStore σ] in
/-- No call is let in once a stage has failed. -/
theorem Failed.not_admitted (h : Failed e w) {i : Nat} {run : StoreWork α} :
    w.calls[i]? ≠ some (.admitted run) := by
  intro hcall
  rcases h.calls _ (List.mem_of_getElem? hcall) with ⟨call, heq⟩ | heq <;> cases heq

/-- One thing that happens while no stage has failed. -/
theorem Progress.step {event : DoorwayEvent} (h : Progress site seeder w)
    (hstep : Step w event w') :
    (Progress site seeder w' ∧ ∀ e, event ≠ .failed e) ∨ ∃ e, Failed e w' ∧ event = .failed e := by
  cases hstep with
  | proceed hfault => exact .inl ⟨h.proceed hfault, nofun⟩
  | @fail e hfault =>
    refine .inr ⟨e, ?_, rfl⟩
    have hadvance := w.opening.step_advance
    rw [hfault] at hadvance
    generalize w.opening.step = next at hadvance
    cases hadvance with
    | failed stage => exact h.failed stage _ _ _
  | breakDown stage seeder' site' e => exact .inr ⟨e, h.failed stage seeder' site' e, rfl⟩
  | call call =>
    refine .inl ⟨⟨fun hne => ?_, h.opened, h.seeding, h.passing, h.untold, h.told, h.filled⟩, nofun⟩
    obtain ⟨hgate, hcalls⟩ := h.waits hne
    refine ⟨hgate, fun c hc => ?_⟩
    rcases List.mem_append.1 hc with hc | hc
    · exact hcalls c hc
    · exact ⟨call, List.mem_singleton.1 hc⟩
  | release hcall hgate =>
    have hended := h.ended fun hw => by simp [hw.gate, Readiness.outcome?] at hgate
    exact .inl ⟨h.after hended hended (h.opened hended) rfl (h.filled (by rw [hended]; rfl)), nofun⟩
  | work hcall =>
    have hended := h.ended (not_waits hcall)
    exact .inl ⟨h.after hended hended (h.opened hended) rfl rfl, nofun⟩
  | miss hcall hslot =>
    have hfilled := h.filled (by rw [h.ended (not_waits hcall)]; rfl)
    simp [hslot] at hfilled
  | markReady hgate | markFailed hgate =>
    have hended := h.ended fun hw => hgate hw.gate
    refine .inl ⟨h.after hended hended ?_ rfl (h.filled (by rw [hended]; rfl)), nofun⟩
    rw [← h.opened hended]
    exact Readiness.settle_of_ne_pending hgate _

/-- One thing that happens after a stage has failed. -/
theorem Failed.step {event : DoorwayEvent} (h : Failed e w) (hstep : Step w event w') :
    Failed e w' ∧ ∀ e', event ≠ .failed e' := by
  have hgate : w'.opening.gate = .failed e.message := by
    rw [step_settled hstep (by simp [h.gate]), h.gate]
  cases hstep with
  | proceed =>
    have hrest : w.opening.step = w.opening := by rw [Opening.step, h.stage]
    refine ⟨⟨?_, ?_, hgate, h.calls⟩, nofun⟩
    · exact (congrArg Opening.stage hrest).trans h.stage
    · exact (congrArg Opening.told hrest).trans h.told
  | fail hfault => simp [Opening.fault?, h.stage] at hfault
  | breakDown stage => simp [h.stage, OpeningStage.isUnannounced] at stage
  | call call =>
    refine ⟨⟨h.stage, h.told, hgate, fun c hc => ?_⟩, nofun⟩
    rcases List.mem_append.1 hc with hc | hc
    · exact h.calls c hc
    · exact .inl ⟨call, List.mem_singleton.1 hc⟩
  | release hcall hout =>
    refine ⟨⟨h.stage, h.told, hgate, fun c hc => ?_⟩, nofun⟩
    rcases List.mem_or_eq_of_mem_set hc with hc | rfl
    · exact h.calls c hc
    · rw [h.gate] at hout
      cases hout
      exact .inr rfl
  | work hcall | miss hcall => exact absurd hcall h.not_admitted
  | markReady | markFailed => exact ⟨⟨h.stage, h.told, hgate, h.calls⟩, nofun⟩

/-- One more thing that happens. -/
theorem state_step {event : DoorwayEvent} (h : State site seeder events w)
    (hstep : Step w event w') : State site seeder (events ++ [event]) w' := by
  cases h with
  | sound progress unfailed =>
    rcases progress.step hstep with ⟨hprogress, hevent⟩ | ⟨e, hfailed, rfl⟩
    · exact .sound hprogress fun e => by simp [unfailed e, (hevent e).symm]
    · exact .failed hfailed fun e' he' => by simpa [unfailed e'] using he'
  | failed failed only =>
    obtain ⟨hfailed, hevent⟩ := failed.step hstep
    refine .failed hfailed fun e' he' => only e' ?_
    simpa [(hevent e').symm] using he'

theorem start_progress (site : Site σ) (registry : Registry) (seeder : Seeder) :
    Progress site seeder (start site registry seeder : Doorway σ α) where
  waits _ := ⟨rfl, nofun⟩
  opened := nofun
  seeding _ := ⟨rfl, rfl⟩
  passing := nofun
  untold _ := rfl
  told := nofun
  filled := nofun

/-- Whatever happened, either no stage has failed so far, or one has. -/
theorem state_run {registry : Registry} (h : Run (start site registry seeder) events w) :
    State site seeder events w := by
  induction h with
  | start => exact .sound (start_progress site registry seeder) nofun
  | step _ hstep ih => exact state_step ih hstep

/-! ## Calls are guarded -/

/-- What is guaranteed after the events so far. -/
structure Guarded (site : Site σ) (seeder : Seeder) (events : List DoorwayEvent)
    (w : Doorway σ α) : Prop where
  /-- A call works on the database only if the gate is open. -/
  works : ∀ {i w'}, Step w (.worked i) w' → w.opening.gate = .ready
  /-- Nothing else that is done from outside changes anything but the calls. -/
  keeps : ∀ {event w'}, Step w event w' → event.isOpening = false → (∀ i, event ≠ .worked i) →
    w'.opening = w.opening
  /-- No call finds the place of the connection empty. -/
  finds : ∀ {i w'}, ¬ Step w (.missed i) w'
  /-- When the gate is open, the connection is in its place, and the listener was told the
  outcome of the seeding once. -/
  agrees : w.opening.gate = .ready → w.opening.slot.isSome = true ∧
    ∃ outcome, (seeder.run site).1 = .ok outcome ∧ Told seeder outcome w.opening
  /-- After a stage has failed, the listener is told nothing, and every call has the error for
  its answer, or it waits and the error is what it is going to get. -/
  fails : ∀ e, .failed e ∈ events → w.opening.gate = .failed e.message ∧ w.opening.told = [] ∧
    ∀ i < w.calls.length, w.calls[i]? = some (.answered (.error (.initialization e.message))) ∨
      (∃ w', Step w (.released i) w') ∧
        ∀ w', Step w (.released i) w' →
          w'.calls[i]? = some (.answered (.error (.initialization e.message)))
  /-- A gate that was settled stays as it is. -/
  stays : w.opening.gate ≠ .pending →
    ∀ later w', Run w later w' → w'.opening.gate = w.opening.gate

/-- A call that waits after a stage has failed gets the error. -/
theorem Failed.release (h : Failed e w) {i : Nat} {call : StoreCall α}
    (hcall : w.calls[i]? = some (.waiting call)) :
    (∃ w', Step w (.released i) w') ∧
      ∀ w', Step w (.released i) w' →
        w'.calls[i]? = some (.answered (.error (.initialization e.message))) := by
  have hout : w.opening.gate.outcome? = some (.error (.initialization e.message)) := by
    rw [h.gate]
    rfl
  refine ⟨⟨_, .release hcall hout⟩, fun w' hstep => ?_⟩
  obtain ⟨hi, -⟩ := List.getElem?_eq_some_iff.1 hcall
  cases hstep with
  | release hcall' hout' =>
    cases hout.symm.trans hout'
    simp [put, hi, StoreCall.released]

/-- Whatever happens around a store that is being opened, no call works before the gate is open,
everything agrees once it is, and a failure is the answer to every call. -/
theorem calls_guarded {registry : Registry} (h : Run (start site registry seeder) events w) :
    Guarded site seeder events w where
  works := by
    intro i w' hstep
    cases hstep with
    | work hcall =>
      cases state_run h with
      | sound progress => exact progress.opened (progress.ended (not_waits hcall))
      | failed failed => exact absurd hcall failed.not_admitted
  keeps := by
    intro event w' hstep hopening hworked
    cases hstep with
    | proceed | fail | breakDown => cases hopening
    | call | release | miss => rfl
    | work => exact absurd rfl (hworked _)
    | markReady hgate => rw [Readiness.markReady, Readiness.settle_of_ne_pending hgate]
    | markFailed hgate => rw [Readiness.markFailed, Readiness.settle_of_ne_pending hgate]
  finds := by
    intro i w' hstep
    cases hstep with
    | miss hcall hslot =>
      cases state_run h with
      | sound progress =>
        have hfilled := progress.filled (by rw [progress.ended (not_waits hcall)]; rfl)
        simp [hslot] at hfilled
      | failed failed => exact failed.not_admitted hcall
  agrees := by
    intro hgate
    cases state_run h with
    | sound progress =>
      have hended := progress.ended fun hw => by simp [hw.gate] at hgate
      exact ⟨progress.filled (by rw [hended]; rfl), progress.told (by rw [hended]; rfl)⟩
    | failed failed => simp [failed.gate] at hgate
  fails := by
    intro e he
    cases state_run h with
    | sound _ unfailed => exact absurd he (unfailed e)
    | @failed e' failed only =>
      cases only e he
      refine ⟨failed.gate, failed.told, fun i hi => ?_⟩
      rcases failed.calls _ (List.getElem_mem hi) with ⟨call, hcall⟩ | hcall
      · exact .inr (failed.release (List.getElem?_eq_some_iff.2 ⟨hi, hcall⟩))
      · exact .inl (List.getElem?_eq_some_iff.2 ⟨hi, hcall⟩)
  stays hgate later w' hlater := run_settled hgate hlater

/-- An opening goes through stages none of which fails. -/
theorem run_steps (w : Doorway σ α) {n : Nat}
    (h : ∀ k < n, (w.opening.steps k).fault? = none) :
    Run w (List.replicate n .proceeded) { w with opening := w.opening.steps n } := by
  induction n with
  | zero => exact .start
  | succ n ih =>
    have hstep := (ih fun k hk => h k (Nat.lt_succ_of_lt hk)).step (.proceed (h n n.lt_succ_self))
    rw [List.replicate_succ']
    rwa [← Opening.steps_succ] at hstep

/-! ### A call before and a call after -/

/-- An application that has no database yet. -/
def bare : Site Settings := ⟨⟨Dict.empty, [], [], []⟩, .database Dict.empty⟩

/-- A call is made before the opening has begun. -/
def early (seeder : Seeder) : Doorway Settings Unit :=
  ⟨.start bare (.ofVersion "v1") seeder, [.waiting .ready]⟩

/-- A snapshot that is not there. -/
def missing : Seeder := .fresh "a.db" "v1" (some ⟨"seed.db", none, 1, ⟨0⟩⟩)

/-- Without a snapshot a call that is made at once waits until the database is there; with one
that is missing all calls are refused. -/
theorem early_guarded :
    (∃ (events : List DoorwayEvent) (w : Doorway Settings Unit),
      Run (start bare (.ofVersion "v1") (.fresh "a.db" "v1" none)) events w ∧
        w.opening.gate = .ready ∧ w.calls = [.answered (.ok none)] ∧
        Guarded bare (.fresh "a.db" "v1" none) events w) ∧
    ∃ (events : List DoorwayEvent) (w : Doorway Settings Unit),
      Run (start bare (.ofVersion "v1") missing) events w ∧
        .failed (.bootstrap (.snapshotMissing "seed.db")) ∈ events ∧
        w.calls = [.waiting .ready, .waiting .ready] ∧ Guarded bare missing events w := by
  have hcalled (seeder : Seeder) : Run (start bare (.ofVersion "v1") seeder) [.called]
      (early seeder) := .step .start (.call _ .ready)
  have hwaits (seeder : Seeder) : (early seeder).calls[0]? = some (.waiting .ready) := rfl
  constructor
  · let seeder := Seeder.fresh "a.db" "v1" none
    have hopen := (hcalled seeder).trans (run_steps (early seeder) (n := 6) (by decide +kernel))
    have hgate : ((early seeder).opening.steps 6).gate = .ready := by decide +kernel
    have hrun := hopen.step (.release (hwaits seeder) (congrArg _ hgate))
    exact ⟨_, _, hrun, hgate, rfl, calls_guarded hrun⟩
  · have hfault : (early missing).opening.fault? = some (.bootstrap (.snapshotMissing "seed.db")) :=
      by decide +kernel
    have hrun := ((hcalled missing).step (.fail hfault)).step (.call _ .ready)
    exact ⟨_, _, hrun, by simp, rfl, calls_guarded hrun⟩

end Doorway

end Replica
