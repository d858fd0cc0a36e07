/-
Replica.Proofs.Cycle.DiscardedSlice — what a slice that cannot be read does to later cycles.

A slice of a response that is missing, or does not read as a page, counts as an empty page
(`Response.Discards`, `discarded_page`). The watermark is one time for all models, so it
advances by the pages that were read, and the next cycle asks every model for later records
only, the model of the slice among them (`discarded_slice`). The records of the slice are
still asked for exactly when no live record that was read is newer than the time that the
cycle started from, or when the new time has expired by then.

`lostSticker` is a slice whose records no later cycle asks for.
-/
import Replica.Proofs.Cycle.Pagination
import Replica.Proofs.Cycle.StartTime
import Replica.Proofs.Predicate.FilterMeaning

namespace Replica

/-! ## Slices that are not read -/

/-- A result that is no list result, or that holds an item which is no record. -/
def Page.Unreadable (model : String) (j : Json) : Prop :=
  ListResult.decode? j = none ∨ ∃ list, ListResult.decode? j = some list
    ∧ ∃ i ∈ list.items, i.isNull = false ∧ ∃ fault, Item.ofWire model i = .error fault

/-- A response has data, but the slice of a model is missing or does not read as a page. -/
def Response.Discards (j : Json) (model : String) : Prop :=
  ∃ data, (j.get? "data").bind Json.asObject? = some data
    ∧ ∀ slice, data.get? (resultKeyFor model) = some slice → Page.Unreadable model slice

theorem Page.readItems_eq_none {model : String} {items : List Json} {i : Json} (hi : i ∈ items)
    {fault : Record.Fault} (h : Item.ofWire model i = .error fault) :
    readItems model items = none := by
  induction items with
  | nil => simp at hi
  | cons j rest ih =>
    rw [readItems]
    rcases List.mem_cons.1 hi with rfl | hi
    · rw [h]
    · split
      · rfl
      · rw [ih hi]
        rfl

theorem Page.ofJson_unreadable {model : String} {j : Json} (h : Unreadable model j) :
    ofJson model j = empty model := by
  unfold ofJson
  rcases h with hnone | ⟨list, hlist, i, hi, hnull, fault, hfault⟩
  · rw [hnone]
  · have hitems : readItems model (list.items.filter (fun i => !i.isNull)) = none :=
      readItems_eq_none (List.mem_filter.2 ⟨hi, by simp [hnull]⟩) hfault
    rw [hlist]
    simp only [hitems]

namespace Fetch

/-- Every request of a fetch asks for pages of models of the start. -/
theorem Rounds.every_asks {transport : Transport} {limit : Nat} {start : List PageAsk}
    (hnd : (start.map PageAsk.model).Nodup) {before : List Request} {q : Request}
    {asks : List PageAsk} (h : Rounds transport limit start before q asks) :
    ∀ request ∈ before ++ [q], ∃ asks', PagesOf start asks' ∧ Request.Asks limit asks' request := by
  induction h with
  | first hne hq =>
    intro request hrequest
    rw [List.nil_append, List.mem_singleton] at hrequest
    subst hrequest
    have hround : Rounds transport limit start [] request start := .first hne hq
    exact ⟨start, hround.asks hnd⟩
  | next hround hraw hcomplete hne hq ih =>
    intro request hrequest
    rcases List.mem_append.1 hrequest with hrequest | hrequest
    · exact ih request hrequest
    · rw [List.mem_singleton] at hrequest
      subst hrequest
      exact ⟨_, (Rounds.next hround hraw hcomplete hne hq).asks hnd⟩

/-- A fetch asks for pages only, and for the first page of every model at first. -/
theorem all_asks (transport : Transport) {r : Registry} (config : SyncConfig)
    (inputs : SelectionInputs) (hne : r.models ≠ []) :
    (∀ q ∈ (all transport r config inputs).sent,
        ∃ asks, PagesOf (firstAsks r config inputs) asks ∧ Request.Asks config.pageLimit asks q)
      ∧ ∀ q, (all transport r config inputs).sent[0]? = some q → AsksForAll r config inputs q := by
  rcases all_ends transport config inputs hne with ⟨-, hrun⟩ | ⟨before, q, asks, hround, -, hends⟩
  · rw [hrun]
    exact ⟨by simp, by simp⟩
  · have hnd := nodup_firstAsks r config inputs
    rw [hends.sent_eq]
    obtain ⟨first, hfirst, hasks⟩ := hround.first_asks hnd
    refine ⟨hround.every_asks hnd, fun q' hq' => ?_⟩
    cases hfirst.symm.trans hq'
    exact asksForAll_of_asks hasks

/-- A slice that is discarded counts as an empty page. -/
theorem discarded_page {limit : Nat} {asks : List PageAsk} {q : Request}
    (h : Request.Asks limit asks q) {raw : Json} {model : String}
    (hdiscards : Response.Discards raw model) :
    ∀ page ∈ (Response.split raw q.children).pages, page.model = model →
      page = Page.empty model := by
  obtain ⟨data, hdata, hslice⟩ := hdiscards
  intro page hpage hmodel
  simp only [Response.split, hdata] at hpage
  obtain ⟨c, hc, hpageOf⟩ := List.mem_filterMap.1 hpage
  obtain ⟨slice, hget, rfl⟩ := Option.map_eq_some_iff.1 hpageOf
  rw [Page.ofJson_model] at hmodel
  rw [h.children] at hc
  obtain ⟨a, -, rfl⟩ := List.mem_map.1 hc
  subst hmodel
  exact Page.ofJson_unreadable (hslice slice hget)

end Fetch

/-! ## Where a cycle resumes -/

namespace Selection

/-- What a cycle needs of a model, whenever it was updated. -/
def timeless (base : Dict Predicate) (inputs : SelectionInputs) (m : ModelSchema) : Predicate :=
  ofCapabilities m.capabilities ((base.get? m.name).getD .all) .zero inputs.grayRelease
    inputs.locale

/-- Records that were updated after a time. -/
def after (t : Timestamp) : Predicate := .compare FieldName.updatedAt .gt (.str t.text)

end Selection

namespace Engine

variable {e : Engine} {now now' : Timestamp}

/-- The time after which a cycle asks for records, if a last sync is on record that was
reached under the same model set and locale. -/
def resumesAfter (e : Engine) (now : Timestamp) (lastSync : Timestamp) : Option Timestamp :=
  if lastSync.isZero || e.isExpired now (.reached lastSync) then none else some lastSync

theorem resumesAfter_le_iff (lastSync w : Timestamp) :
    (∀ t ∈ e.resumesAfter now lastSync, t.millis ≤ w.millis)
      ↔ lastSync.millis ≤ w.millis ∨ e.isExpired now (.reached lastSync) = true := by
  rw [resumesAfter]
  by_cases hzero : lastSync.isZero = true
  · have hmillis : lastSync.millis = 0 := by simpa [Timestamp.isZero] using hzero
    simp [hzero, hmillis]
  · by_cases hexpired : e.isExpired now (.reached lastSync) = true <;> simp [hzero, hexpired]

/-- A cycle after one that committed asks every model for what is later than the recorded
time, or for everything. -/
theorem predicate_resumed (newest : Timestamp) (m : ModelSchema) :
    (Selection.ofSchema e.config.syncExpressions (e.inputs now (e.reached newest)) m).predicate
      = Selection.narrow
          (Selection.timeless e.config.syncExpressions (e.inputs now (e.reached newest)) m)
          ((e.resumesAfter now newest).map Selection.after) := by
  have hsince : Selection.sinceClause (if e.Expired now (e.reached newest) then .zero else newest)
      = (e.resumesAfter now newest).map Selection.after := by
    have hold : e.isExpired now (.reached newest) = true ↔ e.Expired now (e.reached newest) :=
      e.isExpired_iff now (.reached newest)
    have hzero : Timestamp.zero.isZero = true := rfl
    rw [resumesAfter, Selection.sinceClause]
    by_cases hexpired : e.Expired now (e.reached newest)
    · simp [hexpired, hold.2 hexpired, hzero]
    · have hfresh : e.isExpired now (.reached newest) = false :=
        Bool.eq_false_iff.2 fun h => hexpired (hold.1 h)
      by_cases hnever : newest.isZero = true <;>
        simp [hexpired, hfresh, hnever, Selection.after]
  rw [predicate_startFor, startFor_reached, Selection.ofCapabilities, hsince]
  rfl

/-- Without a live record that is newer, the recorded time is not later than the one that the
cycle started from. -/
theorem advance_le_of_liveTimes {w : Timestamp} {pages : List Page}
    (hfresh : e.isExpired now (.reached w) = false)
    (h : ∀ t ∈ Fetch.liveTimes pages, t ≤ w.millis) :
    (e.advance now w pages).millis ≤ w.millis := by
  rw [advance, if_neg fun hold => by
    rw [(e.isExpired_iff now (.reached w)).2 hold] at hfresh
    cases hfresh]
  cases hmax : (Fetch.liveTimes pages).max? with
  | none => exact Nat.min_le_right _ _
  | some newest =>
    have hnewest := h newest (List.max?_mem hmax)
    simp only
    omega

/-! ## Settings after a committed cycle -/

/-- The watermark of a cycle that committed is read back as a whole. -/
theorem watermark_recorded (settings : Settings) {newest : Timestamp}
    (h : newest.millis ≤ Timestamp.maxMillis) :
    KeyStore.watermark
        (settings.withValues (Settings.recorded settings.values (e.reached newest)))
      = .ok (e.reached newest) := by
  refine Settings.watermark_eq_ok.2 ⟨Settings.lastSync_recorded _ h, ?_, ?_⟩
  · rw [Settings.values_withValues]
    exact (Settings.get?_recorded_modelSetVersion _ rfl).symm
  · rw [Settings.values_withValues]
    exact (Settings.get?_recorded_locale _ _).symm

/-- Whatever a cycle sends it sends to fetch from the watermark that it read. -/
theorem Stages.sent_eq {σ τ : Type} [LocalStore σ] [SettingsStore τ] {transport : Transport}
    {store : σ} {settings : τ} {cycle : CycleRun σ τ}
    (h : e.Stages now transport store settings cycle) {q : Request} (hq : q ∈ cycle.sent) :
    ∃ w, KeyStore.watermark settings = .ok w
      ∧ cycle.sent = (Fetch.all transport e.registry e.config (e.inputs now w)).sent := by
  cases h with
  | notReady | unread => simp at hq
  | unfetched hw hfetch | unmerged hw hfetch | unrecorded hw hfetch | committed _ hw hfetch =>
    exact ⟨_, hw, by rw [hfetch]⟩

end Engine

namespace Replicator

variable {σ : Type} [LocalStore σ]

/-- **Discarded slices.** A slice that is discarded brings no item and no token, and holds
nothing back: the next cycle asks its model, as every other, for what is later than the newest
live record that was read anywhere. This is not later than the time that the cycle started
from when no such record is newer. -/
theorem discarded_slice (r : Replicator σ Settings) {now w : Timestamp} {transport : Transport}
    (hnow : now.millis ≤ Timestamp.maxMillis) (hw : KeyStore.lastSync r.settings = .ok w)
    {outcome : SyncOutcome} (hok : (r.sync now transport).1.result = .ok outcome)
    {m : ModelSchema} (hm : m ∈ r.engine.registry.models) {k : Nat} {q : Request} {raw : Json}
    (hq : (r.sync now transport).1.sent[k]? = some q)
    (hraw : transport ((r.sync now transport).1.sent.take (k + 1)) = .ok raw)
    (hdiscards : Response.Discards raw m.name) :
    (∃ response, Fetch.responseTo transport (r.sync now transport).1.sent k = some response
        ∧ ∀ page ∈ response.pages, page.model = m.name → page = Page.empty m.name)
      ∧ ∃ newest, newest = r.engine.advance now w
            (Fetch.received transport (r.sync now transport).1.sent)
          ∧ KeyStore.watermark (r.sync now transport).2.settings = .ok (r.engine.reached newest)
          ∧ (∀ now' transport' first,
              ((r.sync now transport).2.sync now' transport').1.sent[0]? = some first →
              first.filterOf m.name = some (Selection.narrow
                (Selection.timeless r.engine.config.syncExpressions
                  (r.engine.inputs now' (r.engine.reached newest)) m)
                ((r.engine.resumesAfter now' newest).map Selection.after)).toFilter)
          ∧ (∀ now', (∀ t ∈ r.engine.resumesAfter now' newest, t.millis ≤ w.millis)
              ↔ newest.millis ≤ w.millis
                ∨ r.engine.isExpired now' (.reached newest) = true)
          ∧ (r.engine.isExpired now (.reached w) = false →
              (∀ t ∈ Fetch.liveTimes (Fetch.received transport (r.sync now transport).1.sent),
                t ≤ w.millis) → newest.millis ≤ w.millis) := by
  have hne : r.engine.registry.models ≠ [] := List.ne_nil_of_mem hm
  have hstages := r.engine.run_stages now transport r.store r.settings
  have hnewest := hstages.newest_eq hw hok
  have hbound : outcome.newest.millis ≤ Timestamp.maxMillis := by
    rw [hnewest]
    exact Nat.le_trans (Engine.advance_le ..) hnow
  have hrecorded : KeyStore.watermark (r.sync now transport).2.settings
      = .ok (r.engine.reached outcome.newest) :=
    (congrArg KeyStore.watermark (hstages.recorded hok)).trans
      (r.engine.watermark_recorded r.settings hbound)
  constructor
  · have hmem : q ∈ (r.engine.run now transport r.store r.settings).sent :=
      List.mem_of_getElem? hq
    obtain ⟨w', -, hsent⟩ := hstages.sent_eq hmem
    rw [hsent] at hmem
    obtain ⟨asks, -, hasks⟩ := (Fetch.all_asks transport _ _ hne).1 q hmem
    refine ⟨Response.split raw q.children, ?_, Fetch.discarded_page hasks hdiscards⟩
    rw [Fetch.responseTo, hq, hraw]
  · refine ⟨outcome.newest, hnewest, hrecorded, ?_, fun now' => Engine.resumesAfter_le_iff ..,
      fun hfresh htimes => ?_⟩
    · intro now' transport' first hfirst
      have hnext := r.engine.run_stages now' transport' (r.sync now transport).2.store
        (r.sync now transport).2.settings
      obtain ⟨w', hw', hsent⟩ := hnext.sent_eq (List.mem_of_getElem? hfirst)
      cases hrecorded.symm.trans hw'
      have hfirst' : ((r.engine.run now' transport' (r.sync now transport).2.store
          (r.sync now transport).2.settings).sent)[0]? = some first := hfirst
      rw [hsent] at hfirst'
      rw [((Fetch.all_asks transport' _ _ hne).2 first hfirst').filter m hm,
        Engine.predicate_resumed]
    · rw [hnewest]
      exact Engine.advance_le_of_liveTimes hfresh htimes

/-! ### A sticker that is not asked for again -/

/-- An answer with a font that changed at 700 and with stickers that cannot be read. -/
def brokenStickers : Json :=
  .object [("data", .object [
    ("listFont", .object [("items", .arr [
      .object [("id", .str "f1"), ("_lastChangedAt", .int 700), ("_deleted", .bool false)]])]),
    ("listSticker", .object [("items", .str "not a list")])])]

theorem brokenStickers_discards : Response.Discards brokenStickers "Sticker" := by
  refine ⟨_, rfl, fun slice hslice => .inl ?_⟩
  have hsame : some (Json.object [("items", .str "not a list")]) = some slice := hslice
  cases hsame
  rfl

/-- The replica after a cycle at 1000 that gets this answer. -/
def withoutStickers : Replicator Store Settings :=
  (neverSynced.sync ⟨1000⟩ fun _ => .ok brokenStickers).2

theorem brokenStickers_resumed :
    KeyStore.lastSync neverSynced.settings = .ok .zero
      ∧ ModelSchema.named "Sticker" ∈ neverSynced.engine.registry.models
      ∧ Response.Discards brokenStickers "Sticker"
      ∧ (∃ outcome q, (neverSynced.sync ⟨1000⟩ fun _ => .ok brokenStickers).1.result = .ok outcome
        ∧ (neverSynced.sync ⟨1000⟩ fun _ => .ok brokenStickers).1.sent[0]? = some q)
      ∧ KeyStore.watermark withoutStickers.settings
          = .ok (neverSynced.engine.reached ⟨700⟩)
      ∧ ¬ ∀ t ∈ neverSynced.engine.resumesAfter ⟨2000⟩ ⟨700⟩, t.millis ≤ Timestamp.zero.millis := by
  have hclock : (⟨1000⟩ : Timestamp).millis ≤ Timestamp.maxMillis := by decide
  have hzero : KeyStore.lastSync neverSynced.settings = .ok .zero := rfl
  have hmem : ModelSchema.named "Sticker" ∈ neverSynced.engine.registry.models := by decide
  have hcommits : (neverSynced.sync ⟨1000⟩ fun _ => .ok brokenStickers).1.result.toBool = true := by
    decide +kernel
  have hsends :
      ((neverSynced.sync ⟨1000⟩ fun _ => .ok brokenStickers).1.sent[0]?).isSome = true := by
    decide +kernel
  have htime : neverSynced.engine.advance ⟨1000⟩ .zero (Fetch.received (fun _ => .ok brokenStickers)
      (neverSynced.sync ⟨1000⟩ fun _ => .ok brokenStickers).1.sent) = ⟨700⟩ := by
    decide +kernel
  obtain ⟨q, hq⟩ := Option.isSome_iff_exists.1 hsends
  refine ⟨hzero, hmem, brokenStickers_discards, ?_⟩
  cases hresult : (neverSynced.sync ⟨1000⟩ fun _ => .ok brokenStickers).1.result with
  | error err =>
    rw [hresult] at hcommits
    cases hcommits
  | ok outcome =>
    obtain ⟨-, newest, hnewest, hsettings, -, hbound, -⟩ :=
      discarded_slice neverSynced hclock hzero hresult hmem hq rfl
        brokenStickers_discards
    rw [hnewest.trans htime] at hsettings hbound
    refine ⟨⟨outcome, q, rfl, hq⟩, hsettings, fun hle => ?_⟩
    rcases (hbound ⟨2000⟩).1 hle with hearlier | hold
    · revert hearlier
      decide
    · revert hold
      decide +kernel

/-- A sticker that changed at 500. -/
def lostSticker : Record :=
  ⟨"Sticker", "s1", Dict.ofEntries [(FieldName.updatedAt, .str (Timestamp.text ⟨500⟩))]⟩

theorem lostSticker_skipped :
    (neverSynced.sync ⟨1000⟩ fun _ => .ok brokenStickers).1.result.toBool = true
      ∧ Response.Discards brokenStickers "Sticker"
      ∧ KeyStore.lastSync neverSynced.settings = .ok .zero
      ∧ (((neverSynced.sync ⟨1000⟩ fun _ => .ok brokenStickers).1.sent[0]?).bind
          (·.filterOf "Sticker")).map (Filter.accepts lostSticker) = some true
      ∧ (((withoutStickers.sync ⟨2000⟩ fun _ => .ok brokenStickers).1.sent[0]?).bind
          (·.filterOf "Sticker")).map (Filter.accepts lostSticker) = some false := by
  refine ⟨by decide +kernel, brokenStickers_discards, rfl, by decide +kernel, by decide +kernel⟩

end Replicator

end Replica
