/-
Replica.Proofs.Cycle.SerialCycles — cycles one after another.

`Shared.cycles` carries out the cycles of some callers one by one and gives each caller its own
result. Of such a sequence it is seen at once that the states are published in rounds
(`cycles_published`), that the requests of different callers are not mixed (`cycles_unmixed`) and
that each cycle reads the watermark that the cycles before it left (`cycles_handedOn`).
-/
import Mathlib.Data.List.Induction
import Replica.Proofs.Cycle.CycleSteps

namespace Replica

/-! ## What is seen of cycles -/

/-- The states that are published by cycles with these results: each is in progress, has
committed or failed, and is over. -/
def rounds (results : List (Except SyncError SyncOutcome)) : List SyncState :=
  results.flatMap fun result => [.inProgress, .ofResult result, .idle]

theorem rounds_append (results more : List (Except SyncError SyncOutcome)) :
    rounds (results ++ more) = rounds results ++ rounds more := List.flatMap_append

/-- Between two requests of one caller there is none of another. -/
def Unmixed (traffic : List (Nat × Request)) : Prop :=
  ∀ (i j : Nat) (r r' r'' : Request), [(i, r), (j, r'), (i, r'')].Sublist traffic → j = i

theorem Unmixed.sublist {traffic shown : List (Nat × Request)} (h : Unmixed traffic)
    (hshown : shown.Sublist traffic) : Unmixed shown :=
  fun i j r r' r'' hsub => h i j r r' r'' (hsub.trans hshown)

/-- The requests of a caller who has sent none before are not mixed with the others. -/
theorem Unmixed.append {traffic : List (Nat × Request)} {caller : Nat} (h : Unmixed traffic)
    (hnew : ∀ r, (caller, r) ∉ traffic) (sent : List Request) :
    Unmixed (traffic ++ sent.map (caller, ·)) := by
  have hown {i : Nat} {r : Request} (hmem : (i, r) ∈ sent.map (caller, ·)) : i = caller := by
    obtain ⟨_, _, hr⟩ := List.mem_map.1 hmem
    cases hr
    rfl
  intro i j r r' r'' hsub
  obtain ⟨earlier, later, happend, hearlier, hlater⟩ := List.sublist_append_iff.1 hsub
  -- Where the new requests begin: the caller who sent the last of the three has sent none
  -- before, unless all three are from before.
  match earlier, happend with
  | [], happend =>
    cases happend
    have hi := hown (hlater.subset (List.mem_cons_self ..))
    have hj := hown (hlater.subset (List.mem_cons_of_mem _ (List.mem_cons_self ..)))
    exact hj.trans hi.symm
  | [_], happend =>
    cases happend
    have hi := hown (hlater.subset (List.mem_cons_of_mem _ (List.mem_cons_self ..)))
    exact absurd (hi ▸ hearlier.subset (List.mem_cons_self ..)) (hnew r)
  | [_, _], happend =>
    cases happend
    have hi := hown (hlater.subset (List.mem_cons_self ..))
    exact absurd (hi ▸ hearlier.subset (List.mem_cons_self ..)) (hnew r)
  | [_, _, _], happend =>
    cases happend
    exact h i j r r' r'' hearlier

namespace Shared

variable {σ τ : Type} [LocalStore σ] [SettingsStore τ]

/-- Nothing was seen yet. -/
def of (r : Replicator σ τ) : Shared σ τ := ⟨r, [], [], []⟩

variable {backend : Transport}

/-! ## One cycle -/

theorem cycle_published (s : Shared σ τ) (caller : Nat) (now : Timestamp) :
    (s.cycle backend caller now).1.published
      = s.published ++ rounds [(s.cycle backend caller now).2] := by
  rw [cycle, Replicator.sync]
  generalize s.replica.engine.run now _ s.replica.store s.replica.settings = run
  obtain ⟨_ | outcome, sent, store, settings⟩ := run <;> rfl

theorem cycle_traffic (backend : Transport) (s : Shared σ τ) (caller : Nat) (now : Timestamp) :
    ∃ sent : List Request,
      (s.cycle backend caller now).1.traffic = s.traffic ++ sent.map (caller, ·) :=
  ⟨_, rfl⟩

theorem cycle_reads (s : Shared σ τ) (caller : Nat) (now : Timestamp) :
    (s.cycle backend caller now).1.reads = s.reads ++ s.readBy caller now := rfl

theorem mem_readBy {s : Shared σ τ} {caller : Nat} {now : Timestamp} {reading : Reading}
    (h : reading ∈ s.readBy caller now) :
    reading = ⟨caller, now, KeyStore.watermark s.replica.settings⟩ := by
  rw [readBy] at h
  split at h
  · exact List.mem_singleton.1 h
  · simp at h

/-! ## One cycle after another -/

/-- The cycles of some callers, each with what the clock shows when it is read, and the result
of each. -/
def cycles (backend : Transport) : List (Nat × Timestamp) → Shared σ τ →
    Shared σ τ × List (Nat × Except SyncError SyncOutcome)
  | [], s => (s, [])
  | (caller, now) :: turns, s =>
    let (after, result) := s.cycle backend caller now
    let (last, results) := cycles backend turns after
    (last, (caller, result) :: results)

theorem cycles_concat (turns : List (Nat × Timestamp)) (caller : Nat) (now : Timestamp)
    (s : Shared σ τ) :
    cycles backend (turns ++ [(caller, now)]) s
      = (((cycles backend turns s).1.cycle backend caller now).1,
          (cycles backend turns s).2
            ++ [(caller, ((cycles backend turns s).1.cycle backend caller now).2)]) := by
  induction turns generalizing s with
  | nil => rfl
  | cons turn turns ih =>
    rw [List.cons_append, cycles]
    dsimp only
    rw [ih]
    rfl

/-- There is a result for each turn. -/
theorem cycles_callers (backend : Transport) (turns : List (Nat × Timestamp)) (s : Shared σ τ) :
    (cycles backend turns s).2.map Prod.fst = turns.map Prod.fst := by
  induction turns generalizing s with
  | nil => rfl
  | cons turn turns ih => exact congrArg (turn.1 :: ·) (ih _)

variable (r : Replicator σ τ)

/-- The states are published in rounds. -/
theorem cycles_published (turns : List (Nat × Timestamp)) :
    (cycles backend turns (of r)).1.published
      = rounds ((cycles backend turns (of r)).2.map Prod.snd) := by
  induction turns using List.reverseRecOn with
  | nil => rfl
  | append_singleton turns turn ih =>
    rw [cycles_concat, List.map_append, rounds_append, ← ih]
    exact cycle_published ..

/-- Only callers whose turn it was have sent requests. -/
theorem cycles_senders (turns : List (Nat × Timestamp)) {caller : Nat} {request : Request}
    (h : (caller, request) ∈ (cycles backend turns (of r)).1.traffic) :
    caller ∈ turns.map Prod.fst := by
  induction turns using List.reverseRecOn with
  | nil => exact absurd h List.not_mem_nil
  | append_singleton turns turn ih =>
    obtain ⟨i, now⟩ := turn
    obtain ⟨sent, hsent⟩ := cycle_traffic backend (cycles backend turns (of r)).1 i now
    rw [cycles_concat] at h
    dsimp only at h
    rw [hsent] at h
    rw [List.map_append, List.mem_append]
    rcases List.mem_append.1 h with h | h
    · exact .inl (ih h)
    · obtain ⟨_, _, hown⟩ := List.mem_map.1 h
      cases hown
      exact .inr (List.mem_singleton.2 rfl)

/-- The requests of different callers are not mixed. -/
theorem cycles_unmixed (turns : List (Nat × Timestamp)) (h : (turns.map Prod.fst).Nodup) :
    Unmixed (cycles backend turns (of r)).1.traffic := by
  induction turns using List.reverseRecOn with
  | nil => exact fun i j _ _ _ hsub => absurd hsub.length_le (by simp [cycles, of])
  | append_singleton turns turn ih =>
    obtain ⟨i, now⟩ := turn
    rw [List.map_append, List.nodup_append] at h
    obtain ⟨hbefore, -, hdistinct⟩ := h
    obtain ⟨sent, hsent⟩ := cycle_traffic backend (cycles backend turns (of r)).1 i now
    have hnew (request : Request) : (i, request) ∉ (cycles backend turns (of r)).1.traffic :=
      fun hmem => hdistinct i (cycles_senders r turns hmem) i (List.mem_singleton.2 rfl) rfl
    rw [cycles_concat]
    dsimp only
    rw [hsent]
    exact (ih hbefore).append hnew sent

/-- Each cycle reads the watermark that the cycles before it left. -/
theorem cycles_handedOn (turns : List (Nat × Timestamp)) {reading : Reading}
    (h : reading ∈ (cycles backend turns (of r)).1.reads) :
    ∃ earlier, earlier ++ [(reading.caller, reading.now)] <+: turns
      ∧ reading.watermark
          = KeyStore.watermark (cycles backend earlier (of r)).1.replica.settings := by
  induction turns using List.reverseRecOn with
  | nil => exact absurd h List.not_mem_nil
  | append_singleton turns turn ih =>
    obtain ⟨i, now⟩ := turn
    rw [cycles_concat] at h
    dsimp only at h
    rw [cycle_reads] at h
    rcases List.mem_append.1 h with h | h
    · obtain ⟨earlier, hprefix, hread⟩ := ih h
      exact ⟨earlier, hprefix.trans (List.prefix_append ..), hread⟩
    · obtain rfl := mem_readBy h
      exact ⟨turns, List.prefix_rfl, rfl⟩

end Shared

end Replica
