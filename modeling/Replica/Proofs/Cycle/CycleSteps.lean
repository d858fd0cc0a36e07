/-
Replica.Proofs.Cycle.CycleSteps — the steps of a cycle come to the whole cycle.

The main statement is `Flight.step`. If nobody else touches what is shared, the steps of a cycle
come to what the cycle does at once (`Shared.cycle`). What carries this is the rest of a cycle
from any point on (`CyclePoint.rest`): no step changes what comes out of the rest.
-/
import Replica.Proofs.Cycle.CyclePoint

namespace Replica

namespace Engine

variable {σ τ : Type} [LocalStore σ] [SettingsStore τ]

/-! ## The stages of a cycle -/

/-- The end of a cycle whose merge succeeded. -/
def afterMerge (e : Engine) (d : Draft) (stats : MergeStats) (store : σ) (settings : τ) :
    CycleRun σ τ :=
  match SettingsStore.saveWatermark (e.reached (e.nextSync d.now d.watermark d.fetched.groups))
      settings with
  | (.error err, settings) => ⟨.error (.storage err), d.sent, store, settings⟩
  | (.ok (), settings) =>
    ⟨.ok ⟨e.nextSync d.now d.watermark d.fetched.groups, stats.upserted, stats.deleted,
      stats.localized, d.fetched.pages, e.isExpired d.now d.watermark⟩, d.sent, store, settings⟩

/-- The end of a cycle whose second pass knows its overlays. -/
def afterResolve (e : Engine) (d : Draft) (stats : MergeStats) (resolved : List Merger.Resolved)
    (store : σ) (settings : τ) : CycleRun σ τ :=
  match LocalStore.transact (Merger.applyResolved resolved 0) store with
  | (.ok count, store) => e.afterMerge d { stats with localized := count } store settings
  | (.error _, store) => e.afterMerge d { stats with localized := 0 } store settings

/-- The end of a cycle that has made its requests. -/
def afterFetch (e : Engine) (now : Timestamp) (w : Watermark) (fetch : FetchRun) (store : σ)
    (settings : τ) : CycleRun σ τ :=
  match fetch with
  | ⟨sent, .error err⟩ => ⟨.error err, sent, store, settings⟩
  | ⟨sent, .ok fetched⟩ => e.commit now w sent fetched store settings

/-- The end of a cycle whose store is ready. -/
def afterReady (e : Engine) (now : Timestamp) (transport : Transport) (store : σ) (settings : τ) :
    CycleRun σ τ :=
  match KeyStore.watermark settings with
  | .error err => ⟨.error (.storage err), [], store, settings⟩
  | .ok w =>
    e.afterFetch now w (Fetch.all transport e.registry e.config (e.inputs now w)) store settings

theorem run_eq (e : Engine) (now : Timestamp) (transport : Transport) (store : σ) (settings : τ) :
    e.run now transport store settings = match LocalStore.ready store with
      | .error err => ⟨.error (.storage err), [], store, settings⟩
      | .ok () => e.afterReady now transport store settings := rfl

theorem commit_eq (e : Engine) (d : Draft) (store : σ) (settings : τ) :
    e.commit d.now d.watermark d.sent d.fetched store settings
      = match e.merger.merge d.fetched.groups store with
        | (.error err, store) => ⟨.error err, d.sent, store, settings⟩
        | (.ok stats, store) => e.afterMerge d stats store settings := rfl

end Engine

namespace CyclePoint

variable {σ τ : Type} [LocalStore σ] [SettingsStore τ]

/-! ## The rest of a cycle -/

/-- What comes out of a cycle from here on. Until the clock is read it is still to show `now`. -/
def rest (e : Engine) (transport : Transport) (now : Timestamp) (store : σ) (settings : τ) :
    CyclePoint → CycleRun σ τ
  | entered | started => e.run now transport store settings
  | ready => e.afterReady now transport store settings
  | clocked now => e.afterReady now transport store settings
  | fetching now w left pending groups sent =>
    e.afterFetch now w (Fetch.loop transport e.config.maxPages left pending groups sent) store
      settings
  | awaiting now w left pending groups sent request =>
    match transport (sent ++ [request]) with
    | .error err => ⟨.error err, sent ++ [request], store, settings⟩
    | .ok raw =>
      let response := Response.split raw request.children
      if response.complete then
        e.afterFetch now w (Fetch.loop transport e.config.maxPages left
          (response.pages.filterMap (Fetch.nextQuery? pending))
          (response.pages.foldl Fetch.addPage groups) (sent ++ [request])) store settings
      else ⟨.error (.incompleteResponse response.errorSummary), sent ++ [request], store, settings⟩
  | fetched d => e.commit d.now d.watermark d.sent d.fetched store settings
  | resolving d stats todo resolved =>
    let (more, store) := e.merger.resolve todo store
    e.afterResolve d stats (resolved ++ more) store settings
  | lookingUp d stats job wanted pieces found todo resolved =>
    let (answer, store) := Merger.lookUp job.overlay wanted pieces store
    let stored := match answer with
      | .ok more => found ++ more
      | .error _ => []
    let (more, store) := e.merger.resolve todo store
    e.afterResolve d stats (resolved ++ ⟨job.target, job.fresh ++ stored⟩ :: more) store settings
  | labelling d stats resolved => e.afterResolve d stats resolved store settings
  | merged d stats => e.afterMerge d stats store settings
  | ended result sent | told result sent | kept result sent | done result sent =>
    ⟨result, sent, store, settings⟩

variable {e : Engine} {transport : Transport} {now : Timestamp} {store : σ} {settings : τ}

theorem rest_firstRequest (t : Timestamp) (w : Watermark) :
    (firstRequest e t w).rest e transport now store settings
      = e.afterFetch t w (Fetch.all transport e.registry e.config (e.inputs t w)) store
          settings := by
  rw [firstRequest, Fetch.all]
  generalize List.mapM (Fetch.firstQuery e.registry e.config.pageLimit) _ = answer
  cases answer with
  | error err => rfl
  | ok queries =>
    dsimp only
    split <;> rfl

/-- A merge whose first pass has taken effect goes on with its second pass. -/
theorem commit_of_firstPass (transport : Transport) (now : Timestamp) {d : Draft}
    {stats : MergeStats} {after : σ}
    (hknown : Merger.unknownGroup? e.registry d.fetched.groups = none)
    (hfirst : LocalStore.transact (e.merger.firstPass d.fetched.groups) store
      = (.ok stats, after)) :
    e.commit d.now d.watermark d.sent d.fetched store settings
      = (if (Merger.jobs e.registry d.fetched.groups).isEmpty then
          merged d { stats with localized := 0 }
        else resolving d stats (Merger.jobs e.registry d.fetched.groups) []).rest e transport now
          after settings := by
  have hregistry : e.merger.registry = e.registry := rfl
  rw [Engine.commit_eq, Merger.merge, hregistry, hknown, hfirst]
  dsimp only
  rw [Merger.secondPass]
  split
  · rfl
  · rw [rest]
    generalize e.merger.resolve _ after = answer
    obtain ⟨resolved, found⟩ := answer
    dsimp only
    rw [Engine.afterResolve, List.nil_append]
    generalize LocalStore.transact _ found = answer
    obtain ⟨_ | count, last⟩ := answer <;> rfl

theorem commit_of_firstPass_error {d : Draft} {err : StoreError} {after : σ}
    (hknown : Merger.unknownGroup? e.registry d.fetched.groups = none)
    (hfirst : LocalStore.transact (e.merger.firstPass d.fetched.groups) store
      = (.error err, after)) :
    e.commit d.now d.watermark d.sent d.fetched store settings
      = ⟨.error (.mergeFailed err), d.sent, after, settings⟩ := by
  have hregistry : e.merger.registry = e.registry := rfl
  rw [Engine.commit_eq, Merger.merge, hregistry, hknown, hfirst]

theorem commit_of_unknown {d : Draft} {model : String}
    (hunknown : Merger.unknownGroup? e.registry d.fetched.groups = some model) :
    e.commit d.now d.watermark d.sent d.fetched store settings
      = ⟨.error (.schema (.unknownModel model)), d.sent, store, settings⟩ := by
  have hregistry : e.merger.registry = e.registry := rfl
  rw [Engine.commit_eq, Merger.merge, hregistry, hunknown]

/-- A cycle goes on with what it has sent so far. -/
theorem sent_prefix_loop {maxPages : Nat} : ∀ (left : Nat) (pending : List ModelQuery)
    (groups : List ModelGroup) (sent : List Request),
    sent <+: (Fetch.loop transport maxPages left pending groups sent).sent
  | _, [], _, _ => by simp only [Fetch.loop, List.prefix_rfl]
  | 0, _ :: _, _, _ => List.prefix_rfl
  | left + 1, q :: qs, groups, sent => by
    rw [Fetch.loop]
    split
    · exact List.prefix_rfl
    · rename_i request _
      split
      · exact List.prefix_append ..
      · dsimp only
        split
        · exact (List.prefix_append ..).trans (sent_prefix_loop left _ _ _)
        · exact List.prefix_append ..

theorem sent_commit (e : Engine) (now : Timestamp) (w : Watermark) (sent : List Request)
    (fetched : Fetched) : (e.commit now w sent fetched store settings).sent = sent := by
  rw [Engine.commit]
  dsimp only
  split
  · rfl
  · split <;> rfl

theorem sent_afterFetch (w : Watermark) (fetch : FetchRun) :
    (e.afterFetch now w fetch store settings).sent = fetch.sent := by
  obtain ⟨sent, err | fetched⟩ := fetch
  · rfl
  · exact sent_commit ..

omit [LocalStore σ] in
theorem sent_afterMerge (d : Draft) (stats : MergeStats) :
    (e.afterMerge d stats store settings).sent = d.sent := by
  rw [Engine.afterMerge]
  split <;> rfl

theorem sent_afterResolve (d : Draft) (stats : MergeStats) (resolved : List Merger.Resolved) :
    (e.afterResolve d stats resolved store settings).sent = d.sent := by
  rw [Engine.afterResolve]
  split <;> exact sent_afterMerge ..

theorem sent_prefix_rest (p : CyclePoint) :
    p.sent <+: (p.rest e transport now store settings).sent := by
  cases p with
  | entered | started | ready | clocked => exact List.nil_prefix
  | fetching =>
    rw [rest, sent_afterFetch]
    exact sent_prefix_loop ..
  | awaiting =>
    rw [rest]
    split
    · exact List.prefix_rfl
    · dsimp only
      split
      · rw [sent_afterFetch]
        exact sent_prefix_loop ..
      · exact List.prefix_rfl
  | fetched =>
    rw [rest, sent_commit]
    exact List.prefix_rfl
  | resolving | lookingUp | labelling =>
    simp only [rest, sent_afterResolve]
    exact List.prefix_rfl
  | merged =>
    rw [rest, sent_afterMerge]
    exact List.prefix_rfl
  | ended | told | kept | done => exact List.prefix_rfl

end CyclePoint

/-! ## A cycle at once -/

/-- The transport of a cycle: the backend has been sent other requests before. -/
def transportAfter (backend : Transport) (before : List (Nat × Request)) : Transport :=
  fun sent => backend (before.map Prod.snd ++ sent)

namespace Shared

variable {σ τ : Type} [LocalStore σ] [SettingsStore τ]

/-- What a cycle reads when it begins; nothing if the store is not ready. -/
def readBy (s : Shared σ τ) (caller : Nat) (now : Timestamp) : List Reading :=
  match LocalStore.ready s.replica.store with
  | .ok () => [⟨caller, now, KeyStore.watermark s.replica.settings⟩]
  | .error _ => []

/-- A caller's whole cycle at once. -/
def cycle (backend : Transport) (caller : Nat) (now : Timestamp) (s : Shared σ τ) :
    Shared σ τ × Except SyncError SyncOutcome :=
  let (observed, replica) := s.replica.sync now (transportAfter backend s.traffic)
  (⟨replica, s.published ++ observed.published, s.traffic ++ observed.sent.map (caller, ·),
    s.reads ++ s.readBy caller now⟩, observed.result)

end Shared

namespace CyclePoint

variable {σ τ : Type} [LocalStore σ] [SettingsStore τ]

/-- The states that are still to be published. -/
def toPublish (last : SyncState) : CyclePoint → List SyncState
  | entered => [.inProgress, last, .idle]
  | told _ _ | kept _ _ => [.idle]
  | done _ _ => []
  | _ => [last, .idle]

/-- What is still to be read. -/
def toRead (caller : Nat) (now : Timestamp) (s : Shared σ τ) : CyclePoint → List Reading
  | entered | started => s.readBy caller now
  | ready => [⟨caller, now, KeyStore.watermark s.replica.settings⟩]
  | clocked t => [⟨caller, t, KeyStore.watermark s.replica.settings⟩]
  | _ => []

/-- The state that is left in the end. -/
def lastState (s : Shared σ τ) : CyclePoint → SyncState
  | done _ _ => s.replica.state
  | _ => .idle

/-- The outcome that is kept in the end. -/
def lastOutcome (s : Shared σ τ) (result : Except SyncError SyncOutcome) :
    CyclePoint → Option SyncOutcome
  | kept _ _ | done _ _ => s.replica.lastOutcome
  | _ => Replicator.outcome? result

/-- The rest of a caller's cycle at once. -/
def finish (backend : Transport) (caller : Nat) (before : List (Nat × Request)) (now : Timestamp)
    (s : Shared σ τ) (p : CyclePoint) : Shared σ τ × Except SyncError SyncOutcome :=
  let run := p.rest s.replica.engine (transportAfter backend before) now s.replica.store
    s.replica.settings
  (⟨⟨s.replica.engine, run.store, run.settings, p.lastState s, p.lastOutcome s run.result⟩,
    s.published ++ p.toPublish (.ofResult run.result), before ++ run.sent.map (caller, ·),
    s.reads ++ p.toRead caller now s⟩, run.result)

variable {backend : Transport} {caller : Nat} {before : List (Nat × Request)}
  {time now : Timestamp} {s : Shared σ τ}

/-- What is finished from the start is the whole cycle. -/
theorem finish_entered : entered.finish backend caller s.traffic now s
    = s.cycle backend caller now := by
  rw [finish, Shared.cycle, Replicator.sync, CyclePoint.rest]
  generalize s.replica.engine.run now _ s.replica.store s.replica.settings = run
  obtain ⟨_ | outcome, sent, store, settings⟩ := run <;> rfl

/-- There is nothing left to finish in the end. -/
theorem finish_done {result : Except SyncError SyncOutcome} {sent : List Request}
    (htraffic : s.traffic = before ++ sent.map (caller, ·)) :
    (done result sent).finish backend caller before now s = (s, result) := by
  obtain ⟨⟨engine, store, settings, state, outcome⟩, published, traffic, reads⟩ := s
  cases htraffic
  simp [finish, rest, lastState, lastOutcome, toPublish, toRead]

/-- A point between the publication of the start and that of the result. -/
def isInner : CyclePoint → Bool
  | entered | told .. | kept .. | done .. => false
  | _ => true

/-- A step changes nothing about how a cycle comes out. -/
def SameEnd (backend : Transport) (caller : Nat) (before : List (Nat × Request)) (now : Timestamp)
    (s : Shared σ τ) (p : CyclePoint) (next : Shared σ τ × CyclePoint) : Prop :=
  next.2.finish backend caller before now next.1 = p.finish backend caller before now s

/-- Inside a cycle only its rest matters, and which watermark is read. -/
theorem sameEnd_inner {p p' : CyclePoint} {s' : Shared σ τ} (hp : p.isInner = true)
    (hp' : p'.isInner = true) (hengine : s'.replica.engine = s.replica.engine)
    (hpublished : s'.published = s.published)
    (hreads : s'.reads ++ p'.toRead caller now s' = s.reads ++ p.toRead caller now s)
    (hrest : p'.rest s'.replica.engine (transportAfter backend before) now s'.replica.store
        s'.replica.settings
      = p.rest s.replica.engine (transportAfter backend before) now s.replica.store
        s.replica.settings) : SameEnd backend caller before now s p (s', p') := by
  have hpublish {p : CyclePoint} (hp : p.isInner = true) (last : SyncState) :
      p.toPublish last = [last, .idle] := by
    cases p <;> cases hp <;> rfl
  have hstate {p : CyclePoint} (hp : p.isInner = true) (s : Shared σ τ) :
      p.lastState s = .idle := by
    cases p <;> cases hp <;> rfl
  have houtcome {p : CyclePoint} (hp : p.isInner = true) (s : Shared σ τ)
      (result : Except SyncError SyncOutcome) :
      p.lastOutcome s result = Replicator.outcome? result := by
    cases p <;> cases hp <;> rfl
  rw [SameEnd, finish, finish, hrest, hengine, hpublished, hreads, hpublish hp, hpublish hp',
    hstate hp, hstate hp', houtcome hp, houtcome hp']

/-- A step that sends a request or hears a response. -/
theorem sameEnd_fetching (t : Timestamp) (w : Watermark) (left : Nat) (pending : List ModelQuery)
    (groups : List ModelGroup) (sent : List Request) :
    SameEnd backend caller before now s (fetching t w left pending groups sent)
      ((fetching t w left pending groups sent).step backend caller time s) := by
  cases pending with
  | nil =>
    rw [step]
    refine sameEnd_inner rfl rfl rfl rfl rfl ?_
    rw [rest, rest, Fetch.loop]
    rfl
  | cons q qs =>
    cases left with
    | zero => exact sameEnd_inner rfl rfl rfl rfl rfl rfl
    | succ left =>
      rw [step]
      cases hunion : Request.union (q :: qs) with
      | error e =>
        refine sameEnd_inner rfl rfl rfl rfl rfl ?_
        rw [rest, rest, Fetch.loop, hunion]
        rfl
      | ok request =>
        refine sameEnd_inner rfl rfl rfl rfl rfl ?_
        rw [rest, rest, Fetch.loop, hunion]
        dsimp only [Shared.send]
        cases transportAfter backend before (sent ++ [request]) with
        | error e => rfl
        | ok raw =>
          dsimp only
          split <;> rfl

theorem sameEnd_awaiting {t : Timestamp} {w : Watermark} {left : Nat} {pending : List ModelQuery}
    {groups : List ModelGroup} {sent : List Request} {request : Request}
    (htraffic : s.traffic = before ++ (sent ++ [request]).map (caller, ·)) :
    SameEnd backend caller before now s (awaiting t w left pending groups sent request)
      ((awaiting t w left pending groups sent request).step backend caller time s) := by
  have hasked : backend (s.traffic.map Prod.snd)
      = transportAfter backend before (sent ++ [request]) := by
    rw [htraffic, List.map_append, List.map_map]
    simp [transportAfter, Function.comp_def]
  rw [step, hasked]
  cases hraw : transportAfter backend before (sent ++ [request]) with
  | error e =>
    refine sameEnd_inner rfl rfl rfl rfl rfl ?_
    rw [rest, rest, hraw]
  | ok raw =>
    dsimp only
    split
    · rename_i hcomplete
      refine sameEnd_inner rfl rfl rfl rfl rfl ?_
      rw [rest, rest, hraw]
      exact (if_pos hcomplete).symm
    · rename_i hcomplete
      refine sameEnd_inner rfl rfl rfl rfl rfl ?_
      rw [rest, rest, hraw]
      exact (if_neg hcomplete).symm

/-- The first pass of the merge. -/
theorem sameEnd_fetched (d : Draft) :
    SameEnd backend caller before now s (fetched d)
      ((fetched d).step backend caller time s) := by
  have hregistry : s.replica.engine.merger.registry = s.replica.engine.registry := rfl
  rw [step, hregistry]
  dsimp only
  split
  · rename_i model hunknown
    refine sameEnd_inner rfl rfl rfl rfl rfl ?_
    exact (commit_of_unknown hunknown).symm
  · rename_i hknown
    split
    · rename_i err store hfirst
      refine sameEnd_inner rfl rfl rfl rfl rfl ?_
      exact (commit_of_firstPass_error hknown hfirst).symm
    · rename_i stats store hfirst
      refine sameEnd_inner rfl ?_ rfl rfl ?_ (commit_of_firstPass _ _ hknown hfirst).symm <;>
        split <;> rfl

/-- The look-ups of the merge. -/
theorem sameEnd_resolving (d : Draft) (stats : MergeStats) (todo : List Merger.OverlayJob)
    (resolved : List Merger.Resolved) :
    SameEnd backend caller before now s (resolving d stats todo resolved)
      ((resolving d stats todo resolved).step backend caller time s) := by
  cases todo with
  | nil =>
    rw [step]
    refine sameEnd_inner rfl rfl rfl rfl rfl ?_
    rw [rest, rest, Merger.resolve]
    dsimp only
    rw [List.append_nil]
  | cons job todo =>
    rw [step]
    cases hcaps : s.replica.engine.merger.registry.capabilities job.overlay with
    | error e =>
      refine sameEnd_inner rfl rfl rfl rfl rfl ?_
      rw [rest, rest, Merger.resolve, Merger.storedOverlays, hcaps]
      simp
    | ok caps =>
      refine sameEnd_inner rfl rfl rfl rfl rfl ?_
      rw [rest, rest, Merger.resolve, Merger.storedOverlays, hcaps]
      dsimp only
      generalize Merger.lookUp job.overlay _ _ s.replica.store = answer
      obtain ⟨_ | found, store⟩ := answer <;> rfl

theorem sameEnd_lookingUp (d : Draft) (stats : MergeStats) (job : Merger.OverlayJob)
    (wanted : List String → Predicate) (pieces : List (List String)) (found : List Record)
    (todo : List Merger.OverlayJob) (resolved : List Merger.Resolved) :
    SameEnd backend caller before now s (lookingUp d stats job wanted pieces found todo resolved)
      ((lookingUp d stats job wanted pieces found todo resolved).step backend caller time s) := by
  cases pieces with
  | nil =>
    rw [step]
    refine sameEnd_inner rfl rfl rfl rfl rfl ?_
    rw [rest, rest, Merger.lookUp]
    simp
  | cons ids more =>
    rw [step]
    cases hanswer : LocalStore.query job.overlay (wanted ids) s.replica.store with
    | mk answer store =>
      cases answer with
      | error e =>
        refine sameEnd_inner rfl rfl rfl rfl rfl ?_
        rw [rest, rest, Merger.lookUp, hanswer]
        simp [Shared.withStore]
      | ok answer =>
        refine sameEnd_inner rfl rfl rfl rfl rfl ?_
        rw [rest, rest, Merger.lookUp, hanswer]
        dsimp only [Shared.withStore]
        generalize Merger.lookUp job.overlay wanted more store = others
        obtain ⟨_ | others, store'⟩ := others
        · rfl
        · simp only [List.append_assoc]

/-- The second pass of the merge. -/
theorem sameEnd_labelling (d : Draft) (stats : MergeStats) (resolved : List Merger.Resolved) :
    SameEnd backend caller before now s (labelling d stats resolved)
      ((labelling d stats resolved).step backend caller time s) := by
  rw [step]
  cases hanswer : LocalStore.transact (Merger.applyResolved resolved 0) s.replica.store with
  | mk answer store =>
    cases answer <;>
    · refine sameEnd_inner rfl rfl rfl rfl rfl ?_
      rw [rest, rest, Engine.afterResolve, hanswer]
      rfl

/-- The record of the watermark. -/
theorem sameEnd_merged (d : Draft) (stats : MergeStats) :
    SameEnd backend caller before now s (merged d stats)
      ((merged d stats).step backend caller time s) := by
  rw [step]
  split <;>
  · rename_i hsave
    refine sameEnd_inner rfl rfl rfl rfl rfl ?_
    rw [rest, rest, Engine.afterMerge, hsave]
    rfl

/-- The point after the watermark was read. -/
theorem firstRequest_cases (e : Engine) (t : Timestamp) (w : Watermark) :
    (∃ err, firstRequest e t w = ended (.error err) [])
      ∨ ∃ left pending groups, firstRequest e t w = fetching t w left pending groups [] := by
  rw [firstRequest]
  generalize List.mapM (Fetch.firstQuery e.registry e.config.pageLimit) _ = answer
  cases answer with
  | error err => exact .inl ⟨_, rfl⟩
  | ok queries =>
    dsimp only
    split
    · exact .inl ⟨_, rfl⟩
    · exact .inr ⟨_, _, _, rfl⟩

/-- The watermark is read. -/
theorem sameEnd_clocked (t : Timestamp) :
    SameEnd backend caller before now s (clocked t) ((clocked t).step backend caller time s) := by
  rw [step]
  cases hread : KeyStore.watermark s.replica.settings with
  | error err =>
    refine sameEnd_inner rfl rfl rfl rfl (by simp [toRead, hread]) ?_
    rw [rest, rest, Engine.afterReady, hread]
  | ok w =>
    have hrest : (firstRequest s.replica.engine t w).rest s.replica.engine
        (transportAfter backend before) now s.replica.store s.replica.settings
          = (clocked t).rest s.replica.engine (transportAfter backend before) now s.replica.store
            s.replica.settings := by
      rw [rest_firstRequest, rest, Engine.afterReady, hread]
    dsimp only
    rcases firstRequest_cases s.replica.engine t w with
      ⟨err, hfirst⟩ | ⟨left, pending, groups, hfirst⟩ <;>
    · rw [hfirst] at hrest ⊢
      exact sameEnd_inner rfl rfl rfl rfl (by simp [toRead, hread]) hrest

theorem sameEnd_started :
    SameEnd backend caller before now s started (started.step backend caller time s) := by
  rw [step]
  cases hready : LocalStore.ready s.replica.store with
  | error err =>
    refine sameEnd_inner rfl rfl rfl rfl (by simp [toRead, Shared.readBy, hready]) ?_
    rw [rest, rest, Engine.run_eq, hready]
  | ok =>
    refine sameEnd_inner rfl rfl rfl rfl (by simp [toRead, Shared.readBy, hready]) ?_
    rw [rest, rest, Engine.run_eq, hready]

/-- A state is published, or the outcome is kept. -/
theorem sameEnd_entered :
    SameEnd backend caller before now s entered (entered.step backend caller time s) := by
  simp [SameEnd, step, finish, rest, lastState, lastOutcome, toPublish, toRead, Shared.publish,
    Shared.readBy]

theorem sameEnd_ended (result : Except SyncError SyncOutcome) (sent : List Request) :
    SameEnd backend caller before now s (ended result sent)
      ((ended result sent).step backend caller time s) := by
  simp [SameEnd, step, finish, rest, lastState, lastOutcome, toPublish, toRead, Shared.publish]

theorem sameEnd_told (result : Except SyncError SyncOutcome) (sent : List Request) :
    SameEnd backend caller before now s (told result sent)
      ((told result sent).step backend caller time s) := by
  simp [SameEnd, step, finish, rest, lastState, lastOutcome, toPublish, toRead, Shared.keep]

theorem sameEnd_kept (result : Except SyncError SyncOutcome) (sent : List Request) :
    SameEnd backend caller before now s (kept result sent)
      ((kept result sent).step backend caller time s) := by
  simp [SameEnd, step, finish, rest, lastState, lastOutcome, toPublish, toRead, Shared.publish]

/-- Whatever the next step is, the cycle comes out the same; what the clock shows when it is read
is what it was still to show. -/
theorem sameEnd_step {p : CyclePoint} (htraffic : s.traffic = before ++ p.sent.map (caller, ·))
    (hclock : p = ready → time = now) :
    SameEnd backend caller before now s p (p.step backend caller time s) := by
  cases p with
  | entered => exact sameEnd_entered
  | started => exact sameEnd_started
  | ready =>
    obtain rfl := hclock rfl
    exact sameEnd_inner rfl rfl rfl rfl rfl rfl
  | clocked t => exact sameEnd_clocked t
  | fetching => exact sameEnd_fetching ..
  | awaiting => exact sameEnd_awaiting htraffic
  | fetched d => exact sameEnd_fetched d
  | resolving => exact sameEnd_resolving ..
  | lookingUp => exact sameEnd_lookingUp ..
  | labelling => exact sameEnd_labelling ..
  | merged => exact sameEnd_merged ..
  | ended result sent => exact sameEnd_ended result sent
  | told result sent => exact sameEnd_told result sent
  | kept result sent => exact sameEnd_kept result sent
  | done => exact rfl

theorem sent_firstRequest (e : Engine) (t : Timestamp) (w : Watermark) :
    (firstRequest e t w).sent = [] := by
  rcases firstRequest_cases e t w with ⟨err, hfirst⟩ | ⟨left, pending, groups, hfirst⟩ <;>
  · rw [hfirst]
    rfl

/-- Only the sending of a request is seen at the transport. -/
theorem traffic_step {p : CyclePoint} (h : s.traffic = before ++ p.sent.map (caller, ·)) :
    (p.step backend caller time s).1.traffic
      = before ++ (p.step backend caller time s).2.sent.map (caller, ·) := by
  fun_cases step backend caller time s p
  case case5 t read =>
    -- The watermark was read, and nothing is sent yet.
    dsimp only
    cases read with
    | error err => exact h
    | ok w =>
      rw [sent_firstRequest]
      exact h
  case case9 t w left q qs groups sent request _ =>
    -- A request is sent.
    have h : s.traffic = before ++ sent.map (caller, ·) := h
    simp [Shared.send, CyclePoint.sent, h]
  case case15 d _ _ stats store _ jobs =>
    dsimp only
    split <;> exact h
  all_goals exact h

/-- Before the clock is read, a cycle that has not begun to read it goes on likewise. -/
theorem unclocked_of_step {p : CyclePoint}
    (h : (p.step backend caller time s).2.unclocked = true) : p.unclocked = true ∧ p ≠ ready := by
  revert h
  fun_cases step backend caller time s p
  case case5 t read =>
    cases read with
    | error err => exact nofun
    | ok w =>
      rcases firstRequest_cases s.replica.engine t w with
        ⟨err, hfirst⟩ | ⟨left, pending, groups, hfirst⟩ <;>
      · dsimp only
        rw [hfirst]
        exact nofun
  case case15 d _ _ stats store _ jobs =>
    dsimp only
    split <;> exact nofun
  case case1 => exact fun _ => ⟨rfl, nofun⟩
  case case3 => exact fun _ => ⟨rfl, nofun⟩
  all_goals exact nofun

end CyclePoint

/-! ## A cycle under way -/

section

variable {σ τ : Type} [LocalStore σ] [SettingsStore τ]

/-- A caller's cycle is under way that found `first` shared when it was let in: so far it has sent
its requests, and if it goes on alone it comes out as the whole cycle does. -/
structure Flight (backend : Transport) (caller : Nat) (first s : Shared σ τ) (p : CyclePoint) :
    Prop where
  traffic : s.traffic = first.traffic ++ p.sent.map (caller, ·)
  comesOut : ∃ now, p.finish backend caller first.traffic now s = first.cycle backend caller now
  /-- Before it is read, the clock can show any time. -/
  anytime : p.unclocked = true → ∀ now,
    p.finish backend caller first.traffic now s = first.cycle backend caller now

variable {backend : Transport} {caller : Nat} {first s : Shared σ τ} {p : CyclePoint}

theorem Flight.entered (backend : Transport) (caller : Nat) (s : Shared σ τ) :
    Flight backend caller s s .entered where
  traffic := (List.append_nil _).symm
  comesOut := ⟨.zero, CyclePoint.finish_entered⟩
  anytime _ _ := CyclePoint.finish_entered

/-- **One step.** A cycle that is under way stays so, whatever the clock shows. -/
theorem Flight.step (h : Flight backend caller first s p) (time : Timestamp) :
    Flight backend caller first (p.step backend caller time s).1
      (p.step backend caller time s).2 where
  traffic := CyclePoint.traffic_step h.traffic
  comesOut := by
    by_cases hready : p = .ready
    · exact ⟨time, (CyclePoint.sameEnd_step h.traffic fun _ => rfl).trans
        (h.anytime (by rw [hready]; rfl) time)⟩
    · obtain ⟨now, hnow⟩ := h.comesOut
      exact ⟨now, (CyclePoint.sameEnd_step h.traffic (absurd · hready)).trans hnow⟩
  anytime := by
    intro hunclocked now
    obtain ⟨hbefore, hready⟩ := CyclePoint.unclocked_of_step hunclocked
    exact (CyclePoint.sameEnd_step h.traffic (absurd · hready)).trans (h.anytime hbefore now)

/-- In the end a cycle has done what the whole cycle does. -/
theorem Flight.done {result : Except SyncError SyncOutcome} {sent : List Request}
    (h : Flight backend caller first s (.done result sent)) :
    ∃ now, first.cycle backend caller now = (s, result) := by
  obtain ⟨now, hnow⟩ := h.comesOut
  exact ⟨now, hnow.symm.trans (CyclePoint.finish_done h.traffic)⟩

/-- What was seen of a cycle so far is the beginning of what the whole cycle shows. -/
theorem Flight.begun (h : Flight backend caller first s p) : ∃ now,
    s.published <+: (first.cycle backend caller now).1.published
      ∧ s.traffic <+: (first.cycle backend caller now).1.traffic
      ∧ s.reads <+: (first.cycle backend caller now).1.reads := by
  obtain ⟨now, hnow⟩ := h.comesOut
  refine ⟨now, ?_⟩
  rw [← hnow, h.traffic]
  refine ⟨List.prefix_append .., ?_, List.prefix_append ..⟩
  exact (List.prefix_append_right_inj _).2 ((CyclePoint.sent_prefix_rest p).map _)

end

end Replica
