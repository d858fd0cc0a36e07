/-
Replica.Proofs.Cycle.CyclePoint — the steps of a cycle.

A cycle waits for many things: for the store, for each response, for the transactions and
look-ups of its merge, for the settings. `CyclePoint` is how far it has come and what it knows
by then, and a step does one thing to what all callers share (`CyclePoint.step`): it publishes
a state, asks whether the store is ready, reads the clock or the watermark, sends a request or
hears the response, carries out a transaction or a look-up, records the watermark, or keeps the
outcome. Within a step a cycle does not wait; between two steps others can take theirs.

Whatever is shared and whatever the clock shows, a cycle ends after finitely many steps
(`CyclePoint.finishes`).
-/
import Replica.Proofs.Cycle.Stages

namespace Replica

/-! ## What is shared -/

/-- What a cycle read when it began: the clock, and the watermark. -/
structure Reading where
  caller : Nat
  now : Timestamp
  watermark : Except StoreError Watermark

/-- What the callers of a replica share, and what was seen of it from outside. -/
structure Shared (σ τ : Type) where
  replica : Replicator σ τ
  /-- The states that were published. -/
  published : List SyncState
  /-- The requests at the transport, each with the caller whose cycle sent it. -/
  traffic : List (Nat × Request)
  reads : List Reading

/-- What a cycle has decided to write. -/
structure Draft where
  now : Timestamp
  watermark : Watermark
  sent : List Request
  fetched : Fetched

/-! ## Points of a cycle -/

/-- How far a cycle has come. -/
inductive CyclePoint where
  /-- It has been let in. -/
  | entered
  /-- It is under way, as everyone knows. -/
  | started
  /-- The store is ready. -/
  | ready
  /-- The clock has been read. -/
  | clocked (now : Timestamp)
  /-- The next request is to be sent. -/
  | fetching (now : Timestamp) (w : Watermark) (left : Nat) (pending : List ModelQuery)
    (groups : List ModelGroup) (sent : List Request)
  /-- A request is on its way. -/
  | awaiting (now : Timestamp) (w : Watermark) (left : Nat) (pending : List ModelQuery)
    (groups : List ModelGroup) (sent : List Request) (request : Request)
  /-- Everything is fetched. -/
  | fetched (d : Draft)
  /-- The first pass has taken effect, and overlays are to be found for some jobs. -/
  | resolving (d : Draft) (stats : MergeStats) (todo : List Merger.OverlayJob)
    (resolved : List Merger.Resolved)
  /-- The stored overlays of a job are being looked up. -/
  | lookingUp (d : Draft) (stats : MergeStats) (job : Merger.OverlayJob)
    (wanted : List String → Predicate) (pieces : List (List String)) (found : List Record)
    (todo : List Merger.OverlayJob) (resolved : List Merger.Resolved)
  /-- All overlays are found. -/
  | labelling (d : Draft) (stats : MergeStats) (resolved : List Merger.Resolved)
  /-- Everything is merged. -/
  | merged (d : Draft) (stats : MergeStats)
  /-- There is a result. -/
  | ended (result : Except SyncError SyncOutcome) (sent : List Request)
  /-- It is known whether the cycle has failed. -/
  | told (result : Except SyncError SyncOutcome) (sent : List Request)
  /-- The outcome is kept. -/
  | kept (result : Except SyncError SyncOutcome) (sent : List Request)
  /-- The replica is idle again, as everyone knows. -/
  | done (result : Except SyncError SyncOutcome) (sent : List Request)

namespace CyclePoint

/-- The requests that the cycle has sent. -/
def sent : CyclePoint → List Request
  | entered | started | ready | clocked _ => []
  | fetching _ _ _ _ _ sent => sent
  | awaiting _ _ _ _ _ sent request => sent ++ [request]
  | fetched d | resolving d _ _ _ | lookingUp d _ _ _ _ _ _ _ | labelling d _ _ | merged d _ =>
    d.sent
  | ended _ sent | told _ sent | kept _ sent | done _ sent => sent

/-- The clock has not been read. -/
def unclocked : CyclePoint → Bool
  | entered | started | ready => true
  | _ => false

/-- A cycle that knows its watermark goes on to its first request, if there is one. -/
def firstRequest (e : Engine) (now : Timestamp) (w : Watermark) : CyclePoint :=
  let selections := Selection.every e.registry e.config.syncExpressions (e.inputs now w)
  match selections.mapM (Fetch.firstQuery e.registry e.config.pageLimit) with
  | .error err => ended (.error (.schema err)) []
  | .ok queries =>
    if queries.isEmpty then ended (.error .emptyRequest) []
    else fetching now w e.config.maxPages queries (selections.map fun s => ⟨s.model, []⟩) []

end CyclePoint

/-! ## Steps -/

namespace Shared

variable {σ τ : Type}

def publish (s : Shared σ τ) (state : SyncState) : Shared σ τ :=
  { s with replica := { s.replica with state := state }, published := s.published ++ [state] }

def send (s : Shared σ τ) (caller : Nat) (request : Request) : Shared σ τ :=
  { s with traffic := s.traffic ++ [(caller, request)] }

def withStore (s : Shared σ τ) (store : σ) : Shared σ τ :=
  { s with replica := { s.replica with store := store } }

def withSettings (s : Shared σ τ) (settings : τ) : Shared σ τ :=
  { s with replica := { s.replica with settings := settings } }

def keep (s : Shared σ τ) (outcome : Option SyncOutcome) : Shared σ τ :=
  { s with replica := { s.replica with lastOutcome := outcome } }

end Shared

/-- The state in which a cycle ends. -/
def SyncState.ofResult : Except SyncError SyncOutcome → SyncState
  | .ok _ => .committed
  | .error _ => .failed

namespace CyclePoint

variable {σ τ : Type} [LocalStore σ] [SettingsStore τ]

/-- One step of a caller's cycle. The backend answers a request in view of all requests before
it, whoever sent them. -/
@[simp]
def step (backend : Transport) (caller : Nat) (time : Timestamp) (s : Shared σ τ) :
    CyclePoint → Shared σ τ × CyclePoint
  | entered => (s.publish .inProgress, started)
  | started =>
    match LocalStore.ready s.replica.store with
    | .error err => (s, ended (.error (.storage err)) [])
    | .ok () => (s, ready)
  | ready => (s, clocked time)
  | clocked now =>
    let read := KeyStore.watermark s.replica.settings
    ({ s with reads := s.reads ++ [⟨caller, now, read⟩] },
      match read with
      | .error err => ended (.error (.storage err)) []
      | .ok w => firstRequest s.replica.engine now w)
  | fetching now w _ [] groups sent => (s, fetched ⟨now, w, sent, ⟨groups, sent.length⟩⟩)
  | fetching _ _ 0 (_ :: _) _ sent =>
    (s, ended (.error (.paginationLimit s.replica.engine.config.maxPages)) sent)
  | fetching now w (left + 1) (q :: qs) groups sent =>
    match Request.union (q :: qs) with
    | .error e => (s, ended (.error e) sent)
    | .ok request => (s.send caller request, awaiting now w left (q :: qs) groups sent request)
  | awaiting now w left pending groups sent request =>
    match backend (s.traffic.map Prod.snd) with
    | .error e => (s, ended (.error e) (sent ++ [request]))
    | .ok raw =>
      let response := Response.split raw request.children
      if response.complete then
        (s, fetching now w left (response.pages.filterMap (Fetch.nextQuery? pending))
          (response.pages.foldl Fetch.addPage groups) (sent ++ [request]))
      else (s, ended (.error (.incompleteResponse response.errorSummary)) (sent ++ [request]))
  | fetched d =>
    let m := s.replica.engine.merger
    match Merger.unknownGroup? m.registry d.fetched.groups with
    | some model => (s, ended (.error (.schema (.unknownModel model))) d.sent)
    | none =>
      match LocalStore.transact (m.firstPass d.fetched.groups) s.replica.store with
      | (.error e, store) => (s.withStore store, ended (.error (.mergeFailed e)) d.sent)
      | (.ok stats, store) =>
        let jobs := Merger.jobs m.registry d.fetched.groups
        (s.withStore store,
          if jobs.isEmpty then merged d { stats with localized := 0 }
          else resolving d stats jobs [])
  | resolving d stats [] resolved => (s, labelling d stats resolved)
  | resolving d stats (job :: todo) resolved =>
    let m := s.replica.engine.merger
    match m.registry.capabilities job.overlay with
    | .error _ => (s, resolving d stats todo (resolved ++ [⟨job.target, job.fresh ++ []⟩]))
    | .ok caps =>
      (s, lookingUp d stats job (Merger.overlaysOf caps m.locale)
        (Merger.pieces Merger.lookupSize job.baseIds.length job.baseIds) [] todo resolved)
  | lookingUp d stats job _ [] found todo resolved =>
    (s, resolving d stats todo (resolved ++ [⟨job.target, job.fresh ++ found⟩]))
  | lookingUp d stats job wanted (ids :: more) found todo resolved =>
    match LocalStore.query job.overlay (wanted ids) s.replica.store with
    | (.error _, store) =>
      (s.withStore store, resolving d stats todo (resolved ++ [⟨job.target, job.fresh ++ []⟩]))
    | (.ok answer, store) =>
      (s.withStore store, lookingUp d stats job wanted more (found ++ answer) todo resolved)
  | labelling d stats resolved =>
    match LocalStore.transact (Merger.applyResolved resolved 0) s.replica.store with
    | (.ok count, store) => (s.withStore store, merged d { stats with localized := count })
    | (.error _, store) => (s.withStore store, merged d { stats with localized := 0 })
  | merged d stats =>
    let e := s.replica.engine
    let newest := e.nextSync d.now d.watermark d.fetched.groups
    match SettingsStore.saveWatermark (e.reached newest) s.replica.settings with
    | (.error err, settings) => (s.withSettings settings, ended (.error (.storage err)) d.sent)
    | (.ok (), settings) =>
      (s.withSettings settings, ended (.ok ⟨newest, stats.upserted, stats.deleted, stats.localized,
        d.fetched.pages, e.isExpired d.now d.watermark⟩) d.sent)
  | ended result sent => (s.publish (.ofResult result), told result sent)
  | told result sent => (s.keep (Replicator.outcome? result), kept result sent)
  | kept result sent => (s.publish .idle, done result sent)
  | done result sent => (s, done result sent)
/-! ## Every cycle ends -/

/-- The cycle comes to its end, whatever the clock shows. -/
inductive Finishes (backend : Transport) (caller : Nat) : Shared σ τ → CyclePoint → Prop
  | done {s : Shared σ τ} {result : Except SyncError SyncOutcome} {sent : List Request} :
    Finishes backend caller s (done result sent)
  | step {s : Shared σ τ} {p : CyclePoint} (h : ∀ time, Finishes backend caller
      (p.step backend caller time s).1 (p.step backend caller time s).2) :
    Finishes backend caller s p

section

variable {backend : Transport} {caller : Nat}

theorem finishes_ended (s : Shared σ τ) (result : Except SyncError SyncOutcome)
    (sent : List Request) : Finishes backend caller s (ended result sent) :=
  .step fun _ => .step fun _ => .step fun _ => .done

theorem finishes_merged (s : Shared σ τ) (d : Draft) (stats : MergeStats) :
    Finishes backend caller s (merged d stats) := by
  refine .step fun _ => ?_
  rw [step]
  split <;> exact finishes_ended ..

theorem finishes_labelling (s : Shared σ τ) (d : Draft) (stats : MergeStats)
    (resolved : List Merger.Resolved) : Finishes backend caller s (labelling d stats resolved) := by
  refine .step fun _ => ?_
  rw [step]
  split <;> exact finishes_merged ..

/-- A job whose overlays are looked up is left behind, whatever the look-ups answer. -/
theorem finishes_lookingUp {d : Draft} {stats : MergeStats} {todo : List Merger.OverlayJob}
    (htodo : ∀ (s : Shared σ τ) (resolved : List Merger.Resolved),
      Finishes backend caller s (resolving d stats todo resolved))
    (job : Merger.OverlayJob) (wanted : List String → Predicate)
    (resolved : List Merger.Resolved) (pieces : List (List String)) (s : Shared σ τ)
    (found : List Record) :
    Finishes backend caller s (lookingUp d stats job wanted pieces found todo resolved) := by
  induction pieces generalizing s found with
  | nil => exact .step fun _ => htodo ..
  | cons ids more ih =>
    refine .step fun _ => ?_
    rw [step]
    split
    · exact htodo ..
    · exact ih ..

theorem finishes_resolving (d : Draft) (stats : MergeStats) (todo : List Merger.OverlayJob)
    (s : Shared σ τ) (resolved : List Merger.Resolved) :
    Finishes backend caller s (resolving d stats todo resolved) := by
  induction todo generalizing s resolved with
  | nil => exact .step fun _ => finishes_labelling ..
  | cons job todo ih =>
    refine .step fun _ => ?_
    rw [step]
    split
    · exact ih ..
    · exact finishes_lookingUp ih ..

theorem finishes_fetched (s : Shared σ τ) (d : Draft) :
    Finishes backend caller s (fetched d) := by
  refine .step fun _ => ?_
  rw [step]
  dsimp only
  split
  · exact finishes_ended ..
  · split
    · exact finishes_ended ..
    · dsimp only
      split
      · exact finishes_merged ..
      · exact finishes_resolving ..

/-- A request that is on its way is answered or refused. -/
theorem finishes_awaiting {now : Timestamp} {w : Watermark} {left : Nat}
    (hleft : ∀ (pending : List ModelQuery) (groups : List ModelGroup) (sent : List Request)
      (s : Shared σ τ), Finishes backend caller s (fetching now w left pending groups sent))
    (pending : List ModelQuery) (groups : List ModelGroup) (sent : List Request)
    (request : Request) (s : Shared σ τ) :
    Finishes backend caller s (awaiting now w left pending groups sent request) := by
  refine .step fun _ => ?_
  rw [step]
  split
  · exact finishes_ended ..
  · dsimp only
    split
    · exact hleft ..
    · exact finishes_ended ..

/-- With every response there is one request fewer that may still be sent. -/
theorem finishes_fetching (now : Timestamp) (w : Watermark) (left : Nat)
    (pending : List ModelQuery) (groups : List ModelGroup) (sent : List Request)
    (s : Shared σ τ) :
    Finishes backend caller s (fetching now w left pending groups sent) := by
  induction left generalizing pending groups sent s with
  | zero =>
    cases pending with
    | nil => exact .step fun _ => finishes_fetched ..
    | cons => exact .step fun _ => finishes_ended ..
  | succ left ih =>
    cases pending with
    | nil => exact .step fun _ => finishes_fetched ..
    | cons =>
      refine .step fun _ => ?_
      rw [step]
      split
      · exact finishes_ended ..
      · exact finishes_awaiting ih ..

theorem finishes_clocked (s : Shared σ τ) (now : Timestamp) :
    Finishes backend caller s (clocked now) := by
  refine .step fun _ => ?_
  rw [step]
  dsimp only
  split
  · exact finishes_ended ..
  · rw [firstRequest]
    split
    · exact finishes_ended ..
    · split
      · exact finishes_ended ..
      · exact finishes_fetching ..

theorem finishes_started (s : Shared σ τ) : Finishes backend caller s started := by
  refine .step fun _ => ?_
  rw [step]
  split
  · exact finishes_ended ..
  · exact .step fun _ => finishes_clocked ..

/-- **Every cycle ends**, from wherever it has come to and whatever the backend and the store
answer. -/
theorem finishes (backend : Transport) (caller : Nat) (s : Shared σ τ) (p : CyclePoint) :
    Finishes backend caller s p := by
  cases p with
  | entered => exact .step fun _ => finishes_started ..
  | started => exact finishes_started ..
  | ready => exact .step fun _ => finishes_clocked ..
  | clocked => exact finishes_clocked ..
  | fetching => exact finishes_fetching ..
  | awaiting => exact finishes_awaiting (finishes_fetching _ _ _) ..
  | fetched => exact finishes_fetched ..
  | resolving => exact finishes_resolving ..
  | lookingUp => exact finishes_lookingUp (fun s => finishes_resolving _ _ _ s) ..
  | labelling => exact finishes_labelling ..
  | merged => exact finishes_merged ..
  | ended => exact finishes_ended ..
  | told => exact .step fun _ => .step fun _ => .done
  | kept => exact .step fun _ => .done
  | done => exact .done

end

end CyclePoint

end Replica
