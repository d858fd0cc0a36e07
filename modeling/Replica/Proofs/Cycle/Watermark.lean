/-
Replica.Proofs.Cycle.Watermark — the time of the last sync never goes back.

The main statement is `watermark_law`. A cycle that commits records a time that depends on
the clock, the time it started from and the live records it fetched (`advance`), and the
times recorded along a run of cycles never decrease and never pass the clock.

The two bounds of `advance` agree only while the recorded time is not past the clock, so
this is the invariant of a run (`sync_lastSync`): if it holds before a cycle, it holds
after it, whether the cycle commits or fails.
-/
import Replica.Proofs.Cycle.Pagination
import Replica.Proofs.Cycle.Stages

namespace Replica

/-! ## The newest live record -/

namespace Fetch

/-- When the live records of some pages last changed. -/
def liveTimes (pages : List Page) : List Nat :=
  ((pages.flatMap (·.items)).filter (fun i => !i.isTombstone)).map
    (·.metadata.lastChangedAt.millis)

theorem max?_congr {xs ys : List Nat} (h : ∀ n, n ∈ xs ↔ n ∈ ys) : xs.max? = ys.max? := by
  cases hys : ys.max? with
  | none =>
    rw [List.max?_eq_none_iff] at hys ⊢
    exact List.eq_nil_iff_forall_not_mem.2 fun n hn => by simpa [hys] using (h n).1 hn
  | some n =>
    rw [List.max?_eq_some_iff] at hys ⊢
    exact ⟨(h n).2 hys.1, fun m hm => hys.2 m ((h m).1 hm)⟩

theorem mem_itemsOf_groups {pages : List Page} {names : List String}
    (h : ∀ page ∈ pages, page.model ∈ names) (i : Item) :
    i ∈ Merger.itemsOf (names.map fun name => ⟨name, itemsOf pages name⟩)
      ↔ i ∈ pages.flatMap (·.items) := by
  simp only [Merger.itemsOf, itemsOf, List.mem_flatMap, List.mem_map]
  constructor
  · rintro ⟨g, ⟨name, -, rfl⟩, hi⟩
    obtain ⟨page, hpage, hi⟩ := List.mem_flatMap.1 hi
    exact ⟨page, (List.mem_filter.1 hpage).1, hi⟩
  · rintro ⟨page, hpage, hi⟩
    exact ⟨_, ⟨page.model, h page hpage, rfl⟩,
      List.mem_flatMap.2 ⟨page, List.mem_filter.2 ⟨hpage, by simp⟩, hi⟩⟩

end Fetch

namespace Engine

/-- The newest change is the greatest of the times of the live items. -/
theorem newestChange_eq (groups : List ModelGroup) :
    (newestChange groups).map (·.millis)
      = (((Merger.itemsOf groups).filter (fun i => !i.isTombstone)).map
          (·.metadata.lastChangedAt.millis)).max? := by
  have hfold : ∀ (items : List Item) (t : Timestamp),
      (items.foldl (fun newest i =>
          some ((newest.getD i.metadata.lastChangedAt).latest i.metadata.lastChangedAt))
        (some t)).map (·.millis)
        = some ((items.map (·.metadata.lastChangedAt.millis)).foldl max t.millis) := by
    intro items
    induction items with
    | nil => intro t; rfl
    | cons i rest ih => intro t; exact ih _
  rw [newestChange]
  cases (Merger.itemsOf groups).filter (fun i => !i.isTombstone) with
  | nil => rfl
  | cons i rest =>
    rw [List.foldl_cons, List.map_cons, List.max?_cons']
    have hself : ((none : Option Timestamp).getD i.metadata.lastChangedAt).latest
        i.metadata.lastChangedAt = i.metadata.lastChangedAt := by
      simp [Timestamp.latest]
    rw [hself]
    exact hfold rest _

/-! ## The time that a cycle records -/

/-- The time that a cycle records: the clock, if the time it started from had expired;
otherwise that of the newest live record, but never earlier than the one it started from
and never later than the clock. -/
def advance (e : Engine) (now w : Timestamp) (pages : List Page) : Timestamp :=
  if 0 < w.millis ∧ e.config.expireInterval.totalNanos < (now.millis - w.millis) * 1000000 then now
  else
    match (Fetch.liveTimes pages).max? with
    | some newest => ⟨min now.millis (max w.millis newest)⟩
    | none => ⟨min now.millis w.millis⟩

theorem totalNanos_since (t earlier : Timestamp) :
    (t.since earlier).totalNanos = (t.millis - earlier.millis) * 1000000 := by
  simp only [Timestamp.since, Duration.ofMillis, Duration.totalNanos]
  omega

theorem isExpired_iff (e : Engine) (now : Timestamp) (w : Watermark) :
    e.isExpired now w = true ↔ 0 < w.lastSync.millis
      ∧ e.config.expireInterval.totalNanos < (now.millis - w.lastSync.millis) * 1000000 := by
  rw [isExpired, Bool.and_eq_true, decide_eq_true_eq, totalNanos_since]
  simp [Timestamp.isZero, Nat.pos_iff_ne_zero]

/-- The recorded time in terms of the received pages. -/
theorem nextSync_eq {e : Engine} {now : Timestamp} {w : Watermark} {pages : List Page}
    (h : ∀ page ∈ pages, page.model ∈ e.registry.modelNames) :
    e.nextSync now w (e.registry.modelNames.map fun name => ⟨name, Fetch.itemsOf pages name⟩)
      = e.advance now w.lastSync pages := by
  have hnewest : (newestChange (e.registry.modelNames.map fun name =>
      ⟨name, Fetch.itemsOf pages name⟩)).map (·.millis) = (Fetch.liveTimes pages).max? := by
    rw [newestChange_eq]
    refine Fetch.max?_congr fun n => ?_
    simp only [Fetch.liveTimes, List.mem_map, List.mem_filter, Fetch.mem_itemsOf_groups h]
  rw [nextSync, advance]
  by_cases hexpired : e.isExpired now w = true
  · rw [if_pos hexpired, if_pos ((e.isExpired_iff now w).1 hexpired)]
  · rw [if_neg hexpired, if_neg fun h' => hexpired ((e.isExpired_iff now w).2 h'), ← hnewest]
    cases newestChange (e.registry.modelNames.map fun name =>
        ⟨name, Fetch.itemsOf pages name⟩) with
    | none => simp [Timestamp.earliest, Nat.min_comm]
    | some t => simp [Timestamp.earliest, Timestamp.latest, Nat.min_comm, Nat.max_comm]

theorem advance_le (e : Engine) (now w : Timestamp) (pages : List Page) :
    (e.advance now w pages).millis ≤ now.millis := by
  rw [advance]
  split
  · exact Nat.le_refl _
  · split <;> exact Nat.min_le_left _ _

theorem le_advance (e : Engine) {now w : Timestamp} (h : w.millis ≤ now.millis)
    (pages : List Page) : w.millis ≤ (e.advance now w pages).millis := by
  rw [advance]
  split
  · exact h
  · split
    · exact Nat.le_min.2 ⟨h, Nat.le_max_left _ _⟩
    · exact Nat.le_min.2 ⟨h, Nat.le_refl _⟩

/-- No cycle records a time past its clock. -/
theorem Stages.newest_le {σ τ : Type} [LocalStore σ] [SettingsStore τ] {e : Engine}
    {now : Timestamp} {transport : Transport} {store : σ} {settings : τ} {cycle : CycleRun σ τ}
    (h : e.Stages now transport store settings cycle) {outcome : SyncOutcome}
    (hok : cycle.result = .ok outcome) : outcome.newest.millis ≤ now.millis := by
  cases h with
  | committed =>
    cases hok
    simp only [nextSync]
    split
    · exact Nat.le_refl _
    · exact Nat.min_le_right _ _
  | _ => simp at hok

theorem Stages.newest_eq {σ : Type} [LocalStore σ] {e : Engine} {now : Timestamp}
    {transport : Transport} {store : σ} {settings : Settings} {cycle : CycleRun σ Settings}
    (h : e.Stages now transport store settings cycle) {w : Timestamp}
    (hw : KeyStore.lastSync settings = .ok w) {outcome : SyncOutcome}
    (hok : cycle.result = .ok outcome) :
    outcome.newest = e.advance now w (Fetch.received transport cycle.sent) := by
  cases h with
  | @committed w' sent fetched stats store' settings' _ hw' hfetch _ _ =>
    cases hok
    obtain ⟨hgroups, hmodels⟩ := Fetch.all_ok hfetch
    have hsame : w'.lastSync = w :=
      Except.ok.inj ((Settings.watermark_eq_ok.1 hw').1.symm.trans hw)
    rw [hgroups, nextSync_eq hmodels, hsame]
  | _ => simp at hok

end Engine

/-! ## Runs of cycles -/

/-- One cycle of a run: what the clock shows and how the backend behaves. -/
structure Turn where
  now : Timestamp
  transport : Transport

namespace Replicator

variable {σ : Type} [LocalStore σ]

/-- The replica before each cycle of a run and after the last one. -/
def history {τ : Type} [SettingsStore τ] (r : Replicator σ τ) : List Turn → List (Replicator σ τ)
  | [] => [r]
  | t :: rest => r :: (r.sync t.now t.transport).2.history rest

/-- A cycle that commits records the time that its pages give. -/
theorem lastSync_committed (r : Replicator σ Settings) {now w : Timestamp} {transport : Transport}
    (hnow : now.millis ≤ Timestamp.maxMillis) (hw : KeyStore.lastSync r.settings = .ok w)
    {outcome : SyncOutcome} (hok : (r.sync now transport).1.result = .ok outcome) :
    KeyStore.lastSync (r.sync now transport).2.settings
      = .ok (r.engine.advance now w
          (Fetch.received transport (r.sync now transport).1.sent)) := by
  have hstages := r.engine.run_stages now transport r.store r.settings
  have hrecorded := hstages.recorded hok
  have hnewest := hstages.newest_eq hw hok
  have hbound : (r.engine.reached outcome.newest).lastSync.millis ≤ Timestamp.maxMillis :=
    Nat.le_trans (hstages.newest_le hok) hnow
  calc KeyStore.lastSync (r.sync now transport).2.settings
      = KeyStore.lastSync (r.settings.withValues (Settings.recorded r.settings.values
          (r.engine.reached outcome.newest))) := congrArg _ hrecorded
    _ = .ok outcome.newest := Settings.lastSync_recorded _ hbound
    _ = _ := congrArg _ hnewest

/-- One cycle: the recorded time neither goes back nor passes the clock. -/
theorem sync_lastSync (r : Replicator σ Settings) {now w : Timestamp} (transport : Transport)
    (hnow : now.millis ≤ Timestamp.maxMillis) (hw : KeyStore.lastSync r.settings = .ok w)
    (hle : w.millis ≤ now.millis) :
    ∃ w', KeyStore.lastSync (r.sync now transport).2.settings = .ok w'
      ∧ w.millis ≤ w'.millis ∧ w'.millis ≤ now.millis := by
  cases hresult : (r.engine.run now transport r.store r.settings).result with
  | error err =>
    have hsame := (r.engine.run_stages now transport r.store r.settings).lastSync_failed hresult
    exact ⟨w, hsame.trans hw, Nat.le_refl _, hle⟩
  | ok outcome =>
    exact ⟨_, r.lastSync_committed hnow hw hresult, r.engine.le_advance hle _,
      r.engine.advance_le ..⟩

/-- A run: the recorded times never go back, and none is past the clock. -/
theorem history_lastSync (r : Replicator σ Settings) (turns : List Turn) {w : Timestamp}
    (hw : KeyStore.lastSync r.settings = .ok w) (hle : ∀ t ∈ turns, w.millis ≤ t.now.millis)
    (hclock : turns.Pairwise (·.now.millis ≤ ·.now.millis))
    (hmax : ∀ t ∈ turns, t.now.millis ≤ Timestamp.maxMillis) :
    ∃ later : List Timestamp,
      (r.history turns).map (fun s => KeyStore.lastSync s.settings) = (w :: later).map .ok
        ∧ (w :: later).Pairwise (·.millis ≤ ·.millis)
        ∧ ∀ (k : Nat) (t : Turn) (w' : Timestamp), turns[k]? = some t → later[k]? = some w' →
            w'.millis ≤ t.now.millis := by
  induction turns generalizing r w with
  | nil => exact ⟨[], by simp [history, hw], by simp, by simp⟩
  | cons t rest ih =>
    obtain ⟨hfirst, hrest⟩ := List.pairwise_cons.1 hclock
    obtain ⟨w', hw', hup, hbelow⟩ := r.sync_lastSync t.transport (hmax t (List.mem_cons_self ..)) hw
      (hle t (List.mem_cons_self ..))
    obtain ⟨later, htimes, hmono, hbounds⟩ := ih (r.sync t.now t.transport).2 hw'
      (fun x hx => Nat.le_trans hbelow (hfirst x hx)) hrest
      (fun x hx => hmax x (List.mem_cons_of_mem _ hx))
    refine ⟨w' :: later, ?_, ?_, ?_⟩
    · rw [history, List.map_cons, htimes, hw]
      rfl
    · refine List.pairwise_cons.2 ⟨fun x hx => ?_, hmono⟩
      rcases List.mem_cons.1 hx with rfl | hx
      · exact hup
      · exact Nat.le_trans hup ((List.pairwise_cons.1 hmono).1 x hx)
    · intro k t' x ht' hx
      cases k with
      | zero =>
        cases Option.some.inj ht'
        cases Option.some.inj hx
        exact hbelow
      | succ k => exact hbounds k t' x ht' hx

/-- **The watermark law.** A cycle that commits records exactly the time that the clock, the
time it started from and its pages give; and along every run whose clock never goes back,
the recorded times never go back and none is past the clock of its cycle. -/
theorem watermark_law (r : Replicator σ Settings) {w : Timestamp}
    (hw : KeyStore.lastSync r.settings = .ok w) :
    (∀ (now : Timestamp) (transport : Transport) (outcome : SyncOutcome),
        now.millis ≤ Timestamp.maxMillis → (r.sync now transport).1.result = .ok outcome →
        KeyStore.lastSync (r.sync now transport).2.settings
          = .ok (r.engine.advance now w
              (Fetch.received transport (r.sync now transport).1.sent)))
      ∧ ∀ turns : List Turn, (∀ t ∈ turns.head?, w.millis ≤ t.now.millis) →
          turns.Pairwise (·.now.millis ≤ ·.now.millis) →
          (∀ t ∈ turns, t.now.millis ≤ Timestamp.maxMillis) →
          ∃ later : List Timestamp,
            (r.history turns).map (fun s => KeyStore.lastSync s.settings) = (w :: later).map .ok
              ∧ (w :: later).Pairwise (·.millis ≤ ·.millis)
              ∧ ∀ (k : Nat) (t : Turn) (w' : Timestamp), turns[k]? = some t →
                  later[k]? = some w' → w'.millis ≤ t.now.millis := by
  refine ⟨fun now transport outcome hnow hok => r.lastSync_committed hnow hw hok, ?_⟩
  intro turns hstart hclock hmax
  refine r.history_lastSync turns hw (fun t ht => ?_) hclock hmax
  cases turns with
  | nil => simp at ht
  | cons first rest =>
    have hfirst : w.millis ≤ first.now.millis := hstart first rfl
    rcases List.mem_cons.1 ht with rfl | ht
    · exact hfirst
    · exact Nat.le_trans hfirst ((List.pairwise_cons.1 hclock).1 t ht)

/-! ### A cycle that commits and one that fails -/

/-- A backend with a font that changed at 700 and one that was removed at 900. -/
def changedFont : Transport := fun _ =>
  let item (id : String) (time : Int) (gone : Bool) : Json :=
    .object [("id", .str id), ("_lastChangedAt", .int time), ("_deleted", .bool gone)]
  .ok (.object [("data", .object [("listFont",
    .object [("items", .arr [item "f1" 700 false, item "f2" 900 true])])])])

/-- A replica of fonts and stickers that was never synced. -/
def neverSynced : Replicator Store Settings :=
  start ⟨.default, Fetch.fontsAndStickers, none⟩
    (.opened Fetch.fontsAndStickers (Database.empty.prepare Fetch.fontsAndStickers).1)
    (.memory Dict.empty [])

/-- A cycle at 1000 that hears of the fonts, and one at 2000 that hears nothing. -/
def hearThenLose : List Turn :=
  [⟨⟨1000⟩, changedFont⟩, ⟨⟨2000⟩, fun _ => .error .timeout⟩]

theorem hearThenLose_watermarks :
    (∃ outcome, (neverSynced.sync ⟨1000⟩ changedFont).1.result = .ok outcome
        ∧ KeyStore.lastSync (neverSynced.sync ⟨1000⟩ changedFont).2.settings = .ok ⟨700⟩)
      ∧ ∃ later : List Timestamp,
          (neverSynced.history hearThenLose).map (fun s => KeyStore.lastSync s.settings)
              = (.zero :: later).map .ok
            ∧ (Timestamp.zero :: later).Pairwise (·.millis ≤ ·.millis) := by
  have hzero : KeyStore.lastSync neverSynced.settings = .ok .zero := rfl
  have hcommits : (neverSynced.sync ⟨1000⟩ changedFont).1.result.toBool = true := by
    decide +kernel
  have htime : neverSynced.engine.advance ⟨1000⟩ .zero
      (Fetch.received changedFont (neverSynced.sync ⟨1000⟩ changedFont).1.sent) = ⟨700⟩ := by
    decide +kernel
  obtain ⟨hcycle, hrun⟩ := watermark_law neverSynced hzero
  constructor
  · cases hresult : (neverSynced.sync ⟨1000⟩ changedFont).1.result with
    | error err => rw [hresult] at hcommits; cases hcommits
    | ok outcome =>
      exact ⟨outcome, rfl, (hcycle ⟨1000⟩ changedFont outcome (by decide) hresult).trans
        (congrArg Except.ok htime)⟩
  · obtain ⟨later, htimes, hmono, -⟩ := hrun hearThenLose
      (fun t ht => by cases ht; decide)
      (by simp [hearThenLose])
      (by simp [hearThenLose, Timestamp.maxMillis, Text.maxUnsigned64])
    exact ⟨later, htimes, hmono⟩

end Replicator

end Replica
