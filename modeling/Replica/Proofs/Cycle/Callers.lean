/-
Replica.Proofs.Cycle.Callers — callers that run cycles at the same time.

Any number of callers ask for a cycle of one replica, and everyone goes on in steps of its own.
A caller's cycle begins when it gets the lock. Nothing else keeps the steps of two cycles apart:
a step works on what everyone shares and does not look at the lock (`Callers.move?`).

Whatever the schedule, the callers are served as if one cycle had been run after another, in the
order in which they got the lock (`callers_serialized`). The invariant is `Ordered`: what is
shared is what the ended cycles leave one after another and the steps of the one that is under
way have made of it (`Flight`). A move of any caller keeps it (`Ordered.move`), and so does a
schedule (`Ordered.play`).
-/
import Mathlib.Data.List.Nodup
import Replica.Proofs.Cycle.SerialCycles
import Replica.Proofs.Cycle.Watermark

namespace Replica

/-! ## Callers -/

/-- How a cycle is asked for. -/
inductive SyncCall where
  /-- A failure is not explained. -/
  | plain
  | detailed

/-- What a caller is told. -/
inductive SyncAnswer where
  | outcome (outcome : Option SyncOutcome)
  | result (result : Except SyncError SyncOutcome)

def SyncCall.answer : SyncCall → Except SyncError SyncOutcome → SyncAnswer
  | plain, result => .outcome (Replicator.outcome? result)
  | detailed, result => .result result

/-- How far a caller has come. -/
inductive CallerStage where
  /-- It waits for the lock. -/
  | waiting
  /-- It is in its cycle. -/
  | running (p : CyclePoint)
  | returned (answer : SyncAnswer)

structure Caller where
  call : SyncCall
  stage : CallerStage

/-- The callers of a replica in the order in which they called, and who holds the lock. -/
structure Callers (σ τ : Type) where
  shared : Shared σ τ
  lock : Option Nat
  all : List Caller

/-- What can happen next. -/
inductive Move where
  /-- Someone calls. -/
  | call (call : SyncCall)
  /-- A caller who waits gets the lock. -/
  | lock (caller : Nat)
  /-- A caller's cycle goes one step further. -/
  | step (caller : Nat) (time : Timestamp)
  /-- A caller whose cycle is done gives the lock back and returns. -/
  | release (caller : Nat)

/-- The caller who gets the lock. -/
def Move.locked? : Move → Option Nat
  | lock caller => some caller
  | _ => none

def Move.isCall : Move → Bool
  | call _ => true
  | _ => false

namespace Callers

variable {σ τ : Type} [LocalStore σ] [SettingsStore τ]

/-- Nobody has called yet. -/
def of (r : Replicator σ τ) : Callers σ τ := ⟨.of r, none, []⟩

/-- One move, if it is possible. -/
def move? (backend : Transport) (w : Callers σ τ) : Move → Option (Callers σ τ)
  | .call call => some { w with all := w.all ++ [⟨call, .waiting⟩] }
  | .lock i =>
    match w.lock, w.all[i]? with
    | none, some ⟨call, .waiting⟩ =>
      some { w with lock := some i, all := w.all.set i ⟨call, .running .entered⟩ }
    | _, _ => none
  | .step i time =>
    match w.all[i]? with
    | some ⟨call, .running p⟩ =>
      let (shared, next) := p.step backend i time w.shared
      some { w with shared := shared, all := w.all.set i ⟨call, .running next⟩ }
    | _ => none
  | .release i =>
    match w.all[i]? with
    | some ⟨call, .running (.done result _)⟩ =>
      some { w with lock := none, all := w.all.set i ⟨call, .returned (call.answer result)⟩ }
    | _ => none

/-- One move after another. -/
def play (backend : Transport) : List Move → Callers σ τ → Option (Callers σ τ)
  | [], w => some w
  | m :: moves, w => (w.move? backend m).bind (play backend moves)

/-- Who got the lock, in this order. -/
def locked (moves : List Move) : List Nat := moves.filterMap Move.locked?

variable {backend : Transport} {w w' : Callers σ τ}

theorem play_append (first later : List Move) (w : Callers σ τ) :
    play backend (first ++ later) w = (play backend first w).bind (play backend later) := by
  induction first generalizing w with
  | nil => rfl
  | cons m first ih =>
    rw [List.cons_append, play, play]
    cases w.move? backend m with
    | none => rfl
    | some w' => exact ih w'

/-! ## The callers are in order -/

/-- So far the cycles of some callers have ended, in this order, and one more may be under
way. -/
structure Ordered (backend : Transport) (first : Shared σ τ) (turns : List (Nat × Timestamp))
    (w : Callers σ τ) : Prop where
  /-- Everyone has one turn. -/
  once : (turns.map Prod.fst).Nodup
  /-- Everyone whose turn it was has returned with the result of its cycle. -/
  answered : ∀ {i : Nat} {result : Except SyncError SyncOutcome},
    (i, result) ∈ (first.cycles backend turns).2 →
      ∃ call, w.all[i]? = some ⟨call, .returned (call.answer result)⟩
  /-- Nobody else has returned. -/
  returned : ∀ {i : Nat} {call : SyncCall} {answer : SyncAnswer},
    w.all[i]? = some ⟨call, .returned answer⟩ →
      ∃ result, (i, result) ∈ (first.cycles backend turns).2 ∧ answer = call.answer result
  /-- Only the holder of the lock is in its cycle, which began where the others had ended. -/
  running : ∀ {i : Nat} {call : SyncCall} {p : CyclePoint},
    w.all[i]? = some ⟨call, .running p⟩ →
      w.lock = some i ∧ Flight backend i (first.cycles backend turns).1 w.shared p
  /-- The holder of the lock is in its cycle. -/
  holder : ∀ {i : Nat}, w.lock = some i → ∃ call p, w.all[i]? = some ⟨call, .running p⟩
  /-- As long as nobody holds the lock, nothing happens to what is shared. -/
  free : w.lock = none → w.shared = (first.cycles backend turns).1

variable {first : Shared σ τ} {turns : List (Nat × Timestamp)}

/-- At the beginning nobody has had a turn. -/
theorem ordered_of (backend : Transport) (r : Replicator σ τ) :
    Ordered backend (.of r) [] (of r) where
  once := List.nodup_nil
  answered := nofun
  returned := nofun
  running := nofun
  holder := nofun
  free _ := rfl

/-- Someone whose turn it was has returned. -/
theorem Ordered.had_turn (h : Ordered backend first turns w) {i : Nat}
    (hi : i ∈ turns.map Prod.fst) : ∃ call answer, w.all[i]? = some ⟨call, .returned answer⟩ := by
  rw [← Shared.cycles_callers backend turns first] at hi
  obtain ⟨⟨_, result⟩, hmem, rfl⟩ := List.mem_map.1 hi
  obtain ⟨call, hcall⟩ := h.answered hmem
  exact ⟨call, _, hcall⟩

/-- Someone who has not returned has had no turn. -/
theorem Ordered.no_turn (h : Ordered backend first turns w) {i : Nat} {c : Caller}
    (hi : w.all[i]? = some c) (hc : ∀ answer, c.stage ≠ .returned answer) :
    i ∉ turns.map Prod.fst := by
  intro hturn
  obtain ⟨call, answer, hreturned⟩ := h.had_turn hturn
  rw [hi] at hreturned
  cases hreturned
  exact hc _ rfl

/-- Nobody has two turns. -/
theorem Ordered.nodup (h : Ordered backend first turns w) :
    (turns.map Prod.fst ++ w.lock.toList).Nodup := by
  refine List.nodup_append.2 ⟨h.once, by cases w.lock <;> simp, ?_⟩
  rintro i hi j hj rfl
  obtain ⟨call, p, hrunning⟩ := h.holder (Option.mem_toList.1 hj)
  exact h.no_turn hrunning nofun hi

/-- Someone calls. -/
theorem Ordered.call (h : Ordered backend first turns w) (call : SyncCall) :
    Ordered backend first turns { w with all := w.all ++ [⟨call, .waiting⟩] } := by
  have hkept {i : Nat} {c : Caller} (hc : w.all[i]? = some c) :
      (w.all ++ [⟨call, .waiting⟩])[i]? = some c := by
    rwa [List.getElem?_append_left (List.getElem?_eq_some_iff.1 hc).1]
  have hold {i : Nat} {c : Caller} (hc : (w.all ++ [⟨call, .waiting⟩])[i]? = some c)
      (hstage : c.stage ≠ .waiting) : w.all[i]? = some c := by
    rw [List.getElem?_append] at hc
    split at hc
    · exact hc
    · rw [List.getElem?_singleton] at hc
      split at hc
      · cases hc
        exact absurd rfl hstage
      · cases hc
  exact {
    once := h.once
    answered := fun hmem => (h.answered hmem).imp fun _ => hkept
    returned := fun hi => h.returned (hold hi nofun)
    running := fun hi => h.running (hold hi nofun)
    holder := fun hi => (h.holder hi).imp fun _ => .imp fun _ => hkept
    free := h.free }

/-- One caller has come further. -/
theorem getElem?_set_caller {all : List Caller} {i : Nat} {c : Caller} (hi : all[i]? = some c)
    (c' : Caller) (j : Nat) : (all.set i c')[j]? = if i = j then some c' else all[j]? := by
  rw [List.getElem?_set, if_pos (List.getElem?_eq_some_iff.1 hi).1]

/-- Whatever becomes of a caller who has not returned, the others have their answers. -/
theorem Ordered.answered_set (h : Ordered backend first turns w) {i : Nat} {c : Caller}
    (hi : w.all[i]? = some c) (hc : ∀ answer, c.stage ≠ .returned answer) (c' : Caller) {j : Nat}
    {result : Except SyncError SyncOutcome} (hmem : (j, result) ∈ (first.cycles backend turns).2) :
    ∃ call, (w.all.set i c')[j]? = some ⟨call, .returned (call.answer result)⟩ := by
  obtain ⟨call, hj⟩ := h.answered hmem
  refine ⟨call, ?_⟩
  rw [getElem?_set_caller hi, if_neg, hj]
  rintro rfl
  rw [hi] at hj
  cases hj
  exact hc _ rfl

/-- A caller who has not returned comes to another point of its cycle, and nobody else holds the
lock. -/
theorem Ordered.run (h : Ordered backend first turns w) {i : Nat} {c : Caller}
    (hi : w.all[i]? = some c) (hc : ∀ answer, c.stage ≠ .returned answer)
    (hlock : ∀ j, w.lock = some j → j = i) {shared : Shared σ τ} {p : CyclePoint}
    (hflight : Flight backend i (first.cycles backend turns).1 shared p) :
    Ordered backend first turns ⟨shared, some i, w.all.set i ⟨c.call, .running p⟩⟩ where
  once := h.once
  answered := h.answered_set hi hc _
  returned := by
    intro j call answer hj
    rw [getElem?_set_caller hi] at hj
    split at hj
    · cases hj
    · exact h.returned hj
  running := by
    intro j call q hj
    rw [getElem?_set_caller hi] at hj
    split at hj
    · rename_i hsame
      subst hsame
      cases hj
      exact ⟨rfl, hflight⟩
    · rename_i hother
      exact absurd (hlock j (h.running hj).1).symm hother
  holder := by
    rintro j ⟨⟩
    exact ⟨c.call, p, by rw [getElem?_set_caller hi, if_pos rfl]⟩
  free := nofun

/-- A caller who waits gets the lock. -/
theorem Ordered.lock (h : Ordered backend first turns w) {i : Nat} {call : SyncCall}
    (hlock : w.lock = none) (hi : w.all[i]? = some ⟨call, .waiting⟩) :
    Ordered backend first turns
      { w with lock := some i, all := w.all.set i ⟨call, .running .entered⟩ } := by
  refine h.run hi nofun (fun j hj => ?_) ?_
  · rw [hlock] at hj
    cases hj
  · rw [← h.free hlock]
    exact .entered backend i w.shared

/-- A caller's cycle goes one step further. -/
theorem Ordered.step (h : Ordered backend first turns w) {i : Nat} {call : SyncCall}
    {p : CyclePoint} (hi : w.all[i]? = some ⟨call, .running p⟩) (time : Timestamp) :
    Ordered backend first turns
      { w with
        shared := (p.step backend i time w.shared).1
        all := w.all.set i ⟨call, .running (p.step backend i time w.shared).2⟩ } := by
  obtain ⟨hheld, hflight⟩ := h.running hi
  rw [hheld]
  exact h.run hi nofun (fun j hj => Option.some.inj (hj.symm.trans hheld)) (hflight.step time)

/-- A caller whose cycle is done returns: this was its turn. -/
theorem Ordered.release (h : Ordered backend first turns w) {i : Nat} {call : SyncCall}
    {result : Except SyncError SyncOutcome} {sent : List Request}
    (hi : w.all[i]? = some ⟨call, .running (.done result sent)⟩) :
    ∃ now, Ordered backend first (turns ++ [(i, now)])
      { w with lock := none, all := w.all.set i ⟨call, .returned (call.answer result)⟩ } := by
  obtain ⟨hheld, hflight⟩ := h.running hi
  obtain ⟨now, hcycle⟩ := hflight.done
  have hcycles : first.cycles backend (turns ++ [(i, now)])
      = (w.shared, (first.cycles backend turns).2 ++ [(i, result)]) := by
    rw [Shared.cycles_concat, hcycle]
  refine ⟨now, ?once, ?answered, ?returned, ?running, nofun, fun _ => by rw [hcycles]⟩
  case once =>
    have hnodup := h.nodup
    rw [hheld] at hnodup
    rwa [List.map_append]
  case answered =>
    intro j other hmem
    rw [hcycles] at hmem
    rcases List.mem_append.1 hmem with hmem | hmem
    · exact h.answered_set hi nofun _ hmem
    · cases List.mem_singleton.1 hmem
      exact ⟨call, by rw [getElem?_set_caller hi, if_pos rfl]⟩
  case returned =>
    intro j c answer hj
    rw [hcycles]
    rw [getElem?_set_caller hi] at hj
    split at hj
    · rename_i hsame
      subst hsame
      cases hj
      exact ⟨result, List.mem_append_right _ (List.mem_singleton.2 rfl), rfl⟩
    · obtain ⟨other, hmem, hanswer⟩ := h.returned hj
      exact ⟨other, List.mem_append_left _ hmem, hanswer⟩
  case running =>
    intro j c p hj
    rw [getElem?_set_caller hi] at hj
    split at hj
    · cases hj
    · rename_i hother
      exact absurd (Option.some.inj (hheld.symm.trans (h.running hj).1)) hother

/-- **One move.** The callers stay in order: a caller who gives the lock back has had the last
turn. -/
theorem Ordered.move (h : Ordered backend first turns w) {m : Move}
    (hmove : w.move? backend m = some w') :
    ∃ more, Ordered backend first (turns ++ more) w'
      ∧ w.lock.toList ++ m.locked?.toList = more.map Prod.fst ++ w'.lock.toList := by
  revert hmove
  fun_cases move? backend w m
  case case1 call =>
    rintro ⟨⟩
    exact ⟨[], by simpa using h.call call, by simp [Move.locked?]⟩
  case case2 i call hi hlock =>
    rintro ⟨⟩
    exact ⟨[], by simpa using h.lock hlock hi, by simp [Move.locked?, hlock]⟩
  case case4 i time call p hi shared next hstep =>
    rintro ⟨⟩
    refine ⟨[], ?_, by simp [Move.locked?]⟩
    have hnext := h.step hi time
    rw [hstep] at hnext
    simpa using hnext
  case case6 i call result sent hi =>
    rintro ⟨⟩
    obtain ⟨now, hnext⟩ := h.release hi
    exact ⟨[(i, now)], hnext, by simp [Move.locked?, (h.running hi).1]⟩
  all_goals exact nofun

theorem locked_cons (m : Move) (moves : List Move) :
    locked (m :: moves) = m.locked?.toList ++ locked moves := by
  rw [locked, List.filterMap_cons]
  cases m.locked? <;> rfl

/-- **A schedule.** The callers stay in order, and their turns come as they get the lock. -/
theorem Ordered.play (h : Ordered backend first turns w) {moves : List Move}
    (hplay : play backend moves w = some w') :
    ∃ more, Ordered backend first (turns ++ more) w'
      ∧ w.lock.toList ++ locked moves = more.map Prod.fst ++ w'.lock.toList := by
  induction moves generalizing w turns with
  | nil =>
    cases hplay
    exact ⟨[], by simpa using h, by simp [locked]⟩
  | cons m moves ih =>
    obtain ⟨w₁, hmove, hlater⟩ := Option.bind_eq_some_iff.1 hplay
    obtain ⟨more, hordered, hlock⟩ := h.move hmove
    obtain ⟨later, hlast, hlocks⟩ := ih hordered hlater
    refine ⟨more ++ later, by rwa [← List.append_assoc], ?_⟩
    calc w.lock.toList ++ locked (m :: moves)
        = (w.lock.toList ++ m.locked?.toList) ++ locked moves := by
          rw [locked_cons, List.append_assoc]
      _ = more.map Prod.fst ++ (w₁.lock.toList ++ locked moves) := by
          rw [hlock, List.append_assoc]
      _ = (more ++ later).map Prod.fst ++ w'.lock.toList := by
          rw [hlocks, List.map_append, List.append_assoc]

/-! ## What is seen meanwhile -/

/-- What was sent and read is the beginning of what is sent and read in the turns, with that of
the caller who holds the lock. -/
theorem Ordered.begun (h : Ordered backend first turns w) :
    ∃ next : List (Nat × Timestamp), next.map Prod.fst = w.lock.toList
      ∧ w.shared.traffic <+: (first.cycles backend (turns ++ next)).1.traffic
      ∧ w.shared.reads <+: (first.cycles backend (turns ++ next)).1.reads := by
  cases hlock : w.lock with
  | none =>
    refine ⟨[], rfl, ?_⟩
    rw [h.free hlock, List.append_nil]
    exact ⟨List.prefix_rfl, List.prefix_rfl⟩
  | some i =>
    obtain ⟨call, p, hi⟩ := h.holder hlock
    obtain ⟨now, hbegun⟩ := (h.running hi).2.begun
    refine ⟨[(i, now)], rfl, ?_⟩
    rw [Shared.cycles_concat]
    exact hbegun.2

/-- Requests of two cycles never interleave. -/
theorem Ordered.unmixed {r : Replicator σ τ} (h : Ordered backend (.of r) turns w) :
    Unmixed w.shared.traffic := by
  obtain ⟨next, hnext, htraffic, -⟩ := h.begun
  have honce : ((turns ++ next).map Prod.fst).Nodup := by
    rw [List.map_append, hnext]
    exact h.nodup
  exact (Shared.cycles_unmixed r _ honce).sublist htraffic.sublist

/-- Each cycle has read the watermark that the cycles before it left. -/
theorem Ordered.handedOn {r : Replicator σ τ} (h : Ordered backend (.of r) turns w)
    {reading : Reading} (hread : reading ∈ w.shared.reads) :
    ∃ earlier, earlier <+: turns
      ∧ earlier.map Prod.fst ++ [reading.caller] <+: turns.map Prod.fst ++ w.lock.toList
      ∧ reading.watermark
          = KeyStore.watermark ((Shared.of r).cycles backend earlier).1.replica.settings := by
  obtain ⟨next, hnext, -, hreads⟩ := h.begun
  obtain ⟨earlier, hprefix, hwatermark⟩ := Shared.cycles_handedOn r _ (hreads.subset hread)
  refine ⟨earlier, ?_, ?_, hwatermark⟩
  · -- Only the last turn can be that of the caller who holds the lock.
    have hone : next.length ≤ 1 := by
      rw [← List.length_map, hnext]
      cases w.lock <;> simp
    have hshort := hprefix.length_le
    rw [List.length_append, List.length_append, List.length_singleton] at hshort
    exact List.prefix_of_prefix_length_le ((List.prefix_append ..).trans hprefix)
      (List.prefix_append ..) (by omega)
  · have hcallers := hprefix.map Prod.fst
    rwa [List.map_append, List.map_append, hnext] at hcallers

/-- Whoever has returned has the answer to its call, and so has everyone whose turn it was. -/
theorem Ordered.returned_iff (h : Ordered backend first turns w) {i : Nat} {c : Caller}
    (hi : w.all[i]? = some c) (answer : SyncAnswer) :
    c.stage = .returned answer ↔ ∃ result,
      (i, result) ∈ (first.cycles backend turns).2 ∧ answer = c.call.answer result := by
  obtain ⟨call, stage⟩ := c
  constructor
  · rintro rfl
    exact h.returned hi
  · rintro ⟨result, hmem, rfl⟩
    obtain ⟨c, hc⟩ := h.answered hmem
    rw [hi] at hc
    cases hc
    rfl

/-- While someone is in its cycle, the last round may be unfinished. -/
theorem Ordered.midRound {r : Replicator σ τ} (h : Ordered backend (.of r) turns w) {i : Nat}
    (hlock : w.lock = some i) : ∃ last, w.shared.published
      <+: rounds (((Shared.of r).cycles backend turns).2.map Prod.snd ++ [last]) := by
  obtain ⟨call, p, hi⟩ := h.holder hlock
  obtain ⟨now, hpublished, -⟩ := (h.running hi).2.begun
  rw [Shared.cycle_published, Shared.cycles_published, ← rounds_append] at hpublished
  exact ⟨_, hpublished⟩

/-! ## Everyone is served -/

/-- The callers can come from one situation to another though nobody calls any more. -/
def Reaches (backend : Transport) (w w' : Callers σ τ) : Prop :=
  ∃ moves : List Move, (∀ m ∈ moves, m.isCall = false) ∧ play backend moves w = some w'

theorem Reaches.refl (backend : Transport) (w : Callers σ τ) : Reaches backend w w :=
  ⟨[], nofun, rfl⟩

theorem Reaches.move {m : Move} {w₁ : Callers σ τ} (hm : m.isCall = false)
    (hmove : w.move? backend m = some w₁) (h : Reaches backend w₁ w') : Reaches backend w w' := by
  obtain ⟨moves, hmoves, hplay⟩ := h
  refine ⟨m :: moves, List.forall_mem_cons.2 ⟨hm, hmoves⟩, ?_⟩
  rw [Callers.play, hmove]
  exact hplay

theorem Reaches.trans {w₁ : Callers σ τ} (h : Reaches backend w w₁)
    (h' : Reaches backend w₁ w') : Reaches backend w w' := by
  obtain ⟨moves, hmoves, hplay⟩ := h
  obtain ⟨later, hlater, hplay'⟩ := h'
  refine ⟨moves ++ later, List.forall_mem_append.2 ⟨hmoves, hlater⟩, ?_⟩
  rw [play_append, hplay]
  exact hplay'

theorem Reaches.ordered (h : Reaches backend w w') (hw : Ordered backend first turns w) :
    ∃ more, Ordered backend first (turns ++ more) w' := by
  obtain ⟨moves, -, hplay⟩ := h
  obtain ⟨more, hordered, -⟩ := hw.play hplay
  exact ⟨more, hordered⟩

/-- A caller who is in its cycle can go on and return. -/
theorem reaches_returned {i : Nat} {call : SyncCall} {s : Shared σ τ} {p : CyclePoint}
    (hends : p.Finishes backend i s) (hs : w.shared = s)
    (hi : w.all[i]? = some ⟨call, .running p⟩) :
    ∃ w' answer, Reaches backend w w' ∧ w'.lock = none
      ∧ w'.all = w.all.set i ⟨call, .returned answer⟩ := by
  induction hends generalizing w with
  | @done s result sent =>
    have hreleased : w.move? backend (.release i) = some
        { w with lock := none, all := w.all.set i ⟨call, .returned (call.answer result)⟩ } := by
      rw [move?, hi]
    exact ⟨_, _, .move rfl hreleased (.refl backend _), rfl, rfl⟩
  | @step s p _ ih =>
    subst hs
    obtain ⟨w', answer, hreaches, hlock, hall⟩ := ih .zero
      (w := { w with
        shared := (p.step backend i .zero w.shared).1
        all := w.all.set i ⟨call, .running (p.step backend i .zero w.shared).2⟩ })
      rfl (by rw [getElem?_set_caller hi, if_pos rfl])
    have hstep : w.move? backend (.step i .zero) = some
        { w with
          shared := (p.step backend i .zero w.shared).1
          all := w.all.set i ⟨call, .running (p.step backend i .zero w.shared).2⟩ } := by
      rw [move?, hi]
    exact ⟨w', answer, hreaches.move rfl hstep, hlock, by rw [hall, List.set_set]⟩

/-- The first callers can all be served, once nobody holds the lock. -/
theorem Ordered.reaches_served (h : Ordered backend first turns w) (hlock : w.lock = none) {n : Nat}
    (hn : n ≤ w.all.length) :
    ∃ w', Reaches backend w w' ∧ w'.lock = none ∧ w'.all.length = w.all.length
      ∧ ∀ j < n, ∃ call answer, w'.all[j]? = some ⟨call, .returned answer⟩ := by
  induction n with
  | zero => exact ⟨w, .refl backend w, hlock, rfl, nofun⟩
  | succ n ih =>
    obtain ⟨w₁, hreaches, hfree, hlength, hserved⟩ := ih (Nat.le_of_succ_le hn)
    obtain ⟨⟨call, stage⟩, hmem⟩ : ∃ c, w₁.all[n]? = some c :=
      ⟨_, List.getElem?_eq_getElem (by omega)⟩
    cases stage with
    | returned answer =>
      refine ⟨w₁, hreaches, hfree, hlength, fun j hj => ?_⟩
      rcases Nat.lt_succ_iff_lt_or_eq.1 hj with hj | rfl
      · exact hserved j hj
      · exact ⟨call, answer, hmem⟩
    | running p =>
      -- Nobody is in its cycle, since nobody holds the lock.
      obtain ⟨more, hordered⟩ := hreaches.ordered h
      have hheld := (hordered.running hmem).1
      rw [hfree] at hheld
      cases hheld
    | waiting =>
      obtain ⟨w', answer, hlater, hfree', hall⟩ :=
        reaches_returned (CyclePoint.finishes backend n w₁.shared .entered)
          (w := { w₁ with lock := some n, all := w₁.all.set n ⟨call, .running .entered⟩ })
          rfl (by rw [getElem?_set_caller hmem, if_pos rfl])
      have hlocked : w₁.move? backend (.lock n)
          = some { w₁ with lock := some n, all := w₁.all.set n ⟨call, .running .entered⟩ } := by
        rw [move?, hfree, hmem]
      rw [List.set_set] at hall
      refine ⟨w', hreaches.trans (.move rfl hlocked hlater), hfree', ?_, fun j hj => ?_⟩
      · rw [hall, List.length_set, hlength]
      · rw [hall, getElem?_set_caller hmem]
        split
        · exact ⟨call, answer, rfl⟩
        · exact hserved j (by omega)

/-- Everyone can be served. -/
theorem Ordered.served (h : Ordered backend first turns w) :
    ∃ w', Reaches backend w w' ∧ ∀ c ∈ w'.all, ∃ answer, c.stage = .returned answer := by
  -- The caller who holds the lock goes first.
  obtain ⟨w₁, hfirst, hfree⟩ : ∃ w₁, Reaches backend w w₁ ∧ w₁.lock = none := by
    cases hlock : w.lock with
    | none => exact ⟨w, .refl backend w, hlock⟩
    | some i =>
      obtain ⟨call, p, hi⟩ := h.holder hlock
      obtain ⟨w₁, _, hreaches, hfree, -⟩ := reaches_returned (p.finishes backend i w.shared) rfl hi
      exact ⟨w₁, hreaches, hfree⟩
  obtain ⟨more, hordered⟩ := hfirst.ordered h
  obtain ⟨w', hlater, -, hlength, hserved⟩ := hordered.reaches_served hfree (Nat.le_refl _)
  refine ⟨w', hfirst.trans hlater, fun c hc => ?_⟩
  obtain ⟨j, hj, rfl⟩ := List.mem_iff_getElem.1 hc
  obtain ⟨call, answer, hcall⟩ := hserved j (hlength ▸ hj)
  rw [List.getElem?_eq_getElem hj] at hcall
  exact ⟨answer, congrArg Caller.stage (Option.some.inj hcall)⟩

/-! ## The callers are serialized -/

/-- The callers of a replica are served as if their cycles were carried out one after another,
in the order in which they got the lock. -/
structure Serialized (backend : Transport) (r : Replicator σ τ) (moves : List Move)
    (w : Callers σ τ) (turns : List (Nat × Timestamp)) : Prop where
  /-- The turns are those who got the lock, but for the one who holds it. -/
  order : locked moves = turns.map Prod.fst ++ w.lock.toList
  /-- Everyone gets it once. -/
  once : (locked moves).Nodup
  /-- Nobody is in its cycle without it. -/
  exclusive : ∀ (i : Nat) (call : SyncCall) (p : CyclePoint),
    w.all[i]? = some ⟨call, .running p⟩ → w.lock = some i
  /-- Requests of two cycles never interleave. -/
  unmixed : Unmixed w.shared.traffic
  /-- Each cycle reads the watermark that was left by the cycles that had the lock before it. -/
  handedOn : ∀ reading ∈ w.shared.reads, ∃ earlier,
    earlier <+: turns ∧ earlier.map Prod.fst ++ [reading.caller] <+: locked moves
      ∧ reading.watermark = KeyStore.watermark
          ((Shared.of r).cycles backend earlier).1.replica.settings
  /-- Everyone who returns has the outcome of its own cycle. -/
  own : ∀ (i : Nat) (c : Caller), w.all[i]? = some c → ∀ answer,
    c.stage = .returned answer ↔ ∃ result,
      (i, result) ∈ ((Shared.of r).cycles backend turns).2 ∧ answer = c.call.answer result
  /-- When nobody is in its cycle, the store, the settings, the last outcome and all that was
  seen are what the cycles leave one after another. -/
  final : w.lock = none → w.shared = ((Shared.of r).cycles backend turns).1
  /-- The states that were published are rounds then. -/
  inRounds : w.lock = none →
    w.shared.published = rounds (((Shared.of r).cycles backend turns).2.map Prod.snd)
  /-- While someone is in its cycle, the last round may be unfinished. -/
  midRound : ∀ i, w.lock = some i → ∃ last, w.shared.published
    <+: rounds (((Shared.of r).cycles backend turns).2.map Prod.snd ++ [last])
  /-- A cycle that is under way comes to its end, whatever the clock shows. -/
  ends : ∀ (i : Nat) (call : SyncCall) (p : CyclePoint),
    w.all[i]? = some ⟨call, .running p⟩ → p.Finishes backend i w.shared
  /-- Everyone can be served. -/
  served : ∃ w', Reaches backend w w' ∧ ∀ c ∈ w'.all, ∃ answer, c.stage = .returned answer

/-- **Callers are serialized.** However many callers there are and however their steps
interleave, as far as the lock allows it, they are served one after another. -/
theorem callers_serialized {r : Replicator σ τ} {moves : List Move}
    (h : play backend moves (of r) = some w) : ∃ turns, Serialized backend r moves w turns := by
  obtain ⟨turns, hordered, horder⟩ := (ordered_of backend r).play h
  rw [List.nil_append] at hordered
  have horder : locked moves = turns.map Prod.fst ++ w.lock.toList := horder
  exact ⟨turns, {
    order := horder
    once := horder ▸ hordered.nodup
    exclusive := fun _ _ _ hi => (hordered.running hi).1
    unmixed := hordered.unmixed
    handedOn := fun _ hread => horder ▸ hordered.handedOn hread
    own := fun _ _ hi answer => hordered.returned_iff hi answer
    final := hordered.free
    inRounds := fun hfree => by rw [hordered.free hfree, Shared.cycles_published]
    midRound := fun _ hlock => hordered.midRound hlock
    ends := fun i _ p _ => p.finishes backend i w.shared
    served := hordered.served }⟩

/-! ### Someone calls while a cycle is under way -/

/-- Someone calls and is in its cycle when someone else calls, who waits and comes next. -/
def calledMeanwhile : List Move :=
  [.call .detailed, .lock 0] ++ List.replicate 5 (.step 0 ⟨1000⟩) ++ [.call .plain]
    ++ List.replicate 7 (.step 0 ⟨1000⟩) ++ [.release 0, .lock 1]
    ++ List.replicate 12 (.step 1 ⟨2000⟩) ++ [.release 1]

/-- The second caller sends its request after the first and starts where the first ended. -/
theorem calledMeanwhile_serialized :
    ∃ w, play Replicator.changedFont calledMeanwhile (of Replicator.neverSynced) = some w
      ∧ w.lock = none
      ∧ w.shared.traffic.map Prod.fst = [0, 1]
      ∧ w.shared.reads.map (fun reading => reading.watermark.toOption.map (·.lastSync.millis))
          = [some 0, some 700]
      ∧ ∃ turns, turns.map Prod.fst = [0, 1]
        ∧ Serialized Replicator.changedFont Replicator.neverSynced calledMeanwhile w turns := by
  have hseen : (play Replicator.changedFont calledMeanwhile (of Replicator.neverSynced)).map
      (fun w => (w.lock, w.shared.traffic.map Prod.fst,
        w.shared.reads.map fun reading => reading.watermark.toOption.map (·.lastSync.millis)))
      = some (none, [0, 1], [some 0, some 700]) := by
    decide +kernel
  obtain ⟨w, hplay, hw⟩ := Option.map_eq_some_iff.1 hseen
  simp only [Prod.mk.injEq] at hw
  obtain ⟨hlock, htraffic, hreads⟩ := hw
  obtain ⟨turns, hserialized⟩ := callers_serialized hplay
  refine ⟨w, hplay, hlock, htraffic, hreads, turns, ?_, hserialized⟩
  have horder := hserialized.order
  rw [hlock, Option.toList_none, List.append_nil] at horder
  exact horder.symm

end Callers

end Replica
