/-
Replica.Proofs.Cycle.Resumption — a cycle goes on from the watermark that is on record.

While the watermark is neither too old nor from another model set, every request of the next
cycle, whatever page it asks for, has a filter for what was updated after the recorded time
(`resumes`); overlay models are excepted when the locale has changed. What such a filter
accepts was updated later, whatever else is asked of the model (`accepts_after`).
-/
import Replica.Proofs.Cycle.DiscardedSlice
import Replica.Proofs.Predicate.FilterAgreement

namespace Replica

/-! ## Filters for what is later -/

namespace Predicate

theorem acceptsAll_append (x : Record) (ps qs : List Predicate) :
    Filter.acceptsAll x (filtersOf (ps ++ qs))
      = (Filter.acceptsAll x (filtersOf ps) && Filter.acceptsAll x (filtersOf qs)) := by
  induction ps with
  | nil => rw [List.nil_append, filtersOf, Filter.acceptsAll, Bool.true_and]
  | cons p ps ih =>
    rw [List.cons_append]
    by_cases hall : p.isAll = true
    · rw [eq_all_of_isAll hall, filtersOf_cons_all, filtersOf_cons_all, ih]
    · have hsome : p.isAll = false := by simpa using hall
      rw [filtersOf_cons hsome, filtersOf_cons hsome, Filter.acceptsAll, Filter.acceptsAll, ih,
        Bool.and_assoc]

end Predicate

namespace Selection

open Predicate

/-- What is accepted was updated after the time, whatever else is asked for. -/
theorem accepts_after {x : Record} {p : Predicate} {t : Timestamp}
    (h : Filter.accepts x (narrow p (some (after t))).toFilter = true) :
    (after t).evaluate x = true := by
  have hboth : narrow p (some (after t)) = allOf (p.conjuncts ++ [after t]) := by
    rw [narrow, both]
    split
    · rename_i hnil
      have hlast : (after t).conjuncts = [after t] := rfl
      simp [hlast] at hnil
    · rfl
  have hplain : IsPlainField FieldName.updatedAt := ⟨by decide, by decide, by decide⟩
  have hlast : Filter.acceptsAll x (filtersOf [after t]) = (after t).evaluate x := by
    rw [filtersOf_cons rfl, Filter.acceptsAll, after, accepts_compare x hplain]
    simp [filtersOf, Filter.acceptsAll, evaluate]
  rw [hboth, toFilter] at h
  simp only [Filter.accepts, Filter.acceptsEntries, Bool.and_true] at h
  rw [acceptsAll_append, hlast, Bool.and_eq_true] at h
  exact h.2

end Selection

namespace Engine

variable {e : Engine} {now : Timestamp} {w : Watermark}

/-! ## What requests ask for -/

/-- Every request of a cycle, whatever page it asks for, has for each of its models the filter of
what the cycle needs of it. -/
theorem Stages.filters_of_sent {σ τ : Type} [LocalStore σ] [SettingsStore τ]
    {transport : Transport} {store : σ} {settings : τ} {cycle : CycleRun σ τ}
    (h : e.Stages now transport store settings cycle) {q : Request} (hq : q ∈ cycle.sent) :
    ∃ w, KeyStore.watermark settings = .ok w
      ∧ ∀ name ∈ q.models, ∃ m ∈ e.registry.models, m.name = name
        ∧ q.filterOf name = some
            (Selection.ofSchema e.config.syncExpressions (e.inputs now w) m).predicate.toFilter := by
  obtain ⟨w, hw, hsent⟩ := h.sent_eq hq
  rw [hsent] at hq
  have hne : e.registry.models ≠ [] := by
    intro hnil
    simp [Fetch.all, Selection.every, hnil, pure, Except.pure] at hq
  obtain ⟨asks, hpages, hasks⟩ := (Fetch.all_asks transport e.config (e.inputs now w) hne).1 q hq
  refine ⟨w, hw, ?_⟩
  intro name hname
  rw [Request.models, hasks.children, List.map_map] at hname
  obtain ⟨a, ha, rfl⟩ := List.mem_map.1 hname
  obtain ⟨first, hfirst, heq⟩ := hpages.same a ha
  obtain ⟨m, hm, rfl⟩ := List.mem_map.1 hfirst
  have hfilter := hasks.filter a ha
  refine ⟨m, hm, by rw [heq]; rfl, ?_⟩
  rw [heq] at hfilter ⊢
  exact hfilter

/-! ## Going on -/

/-- The watermark is one to go on from: it was reached under the same model set, and it is not
too old. -/
structure Continues (e : Engine) (now : Timestamp) (w : Watermark) : Prop where
  version : w.modelSetVersion = some e.registry.version
  started : 0 < w.lastSync.millis
  recent : (now.millis - w.lastSync.millis) * 1000000 ≤ e.config.expireInterval.totalNanos

theorem Continues.isExpired_eq (h : e.Continues now w) : e.isExpired now w = false := by
  rw [Bool.eq_false_iff]
  intro hexpired
  obtain ⟨-, hold⟩ := (e.isExpired_iff now w).1 hexpired
  have hrecent := h.recent
  omega

/-- Whether a model is fetched in full although the cycle goes on from a watermark. -/
def rebuilds (e : Engine) (w : Watermark) (m : ModelSchema) : Bool :=
  w.localeChanged e.config.locale && m.isOverlay

/-- What a cycle that goes on asks of a model. -/
def continued (e : Engine) (now : Timestamp) (w : Watermark) (m : ModelSchema) : Predicate :=
  Selection.narrow (Selection.timeless e.config.syncExpressions (e.inputs now w) m)
    (if e.rebuilds w m then none else some (Selection.after w.lastSync))

theorem Continues.startFor_eq (h : e.Continues now w) (m : ModelSchema) :
    e.startFor now w m = if e.rebuilds w m then .zero else w.lastSync := by
  have hfresh : ¬e.Expired now w := by
    intro hexpired
    have hnone := (e.isExpired_iff now w).2 hexpired
    rw [h.isExpired_eq] at hnone
    cases hnone
  have hmodels : ¬e.OtherModels w := fun hother => hother.2 h.version
  have hrebuilds : e.rebuilds w m = true ↔ e.OtherLocale w m := by
    simp [rebuilds, OtherLocale, Watermark.localeChanged, and_comm]
  rw [startFor]
  simp only [hfresh, hmodels, hrebuilds, false_or]

theorem Continues.predicate_eq (h : e.Continues now w) (m : ModelSchema) :
    (Selection.ofSchema e.config.syncExpressions (e.inputs now w) m).predicate
      = e.continued now w m := by
  have hnever : w.lastSync.isZero = false := by
    have hstarted := h.started
    simp only [Timestamp.isZero, decide_eq_false_iff_not]
    omega
  have hsince : Selection.sinceClause (if e.rebuilds w m then .zero else w.lastSync)
      = if e.rebuilds w m then none else some (Selection.after w.lastSync) := by
    by_cases hfull : e.rebuilds w m = true
    · rw [if_pos hfull, if_pos hfull]
      rfl
    · rw [if_neg hfull, if_neg hfull, Selection.sinceClause, hnever]
      rfl
  rw [predicate_startFor, h.startFor_eq m, continued, ← hsince]
  rfl

/-- A cycle goes on: it is no full one, and every request asks of every model in it only what
was updated after the recorded time, unless the model is rebuilt. -/
structure Resumes {σ τ : Type} (e : Engine) (now : Timestamp) (w : Watermark)
    (cycle : CycleRun σ τ) : Prop where
  incremental : ∀ outcome, cycle.result = .ok outcome → outcome.fullResync = false
  models : ∀ q ∈ cycle.sent, ∀ name ∈ q.models, ∃ m ∈ e.registry.models, m.name = name ∧
    q.filterOf name = some (e.continued now w m).toFilter
  later : ∀ m, e.rebuilds w m = false → ∀ x,
    Filter.accepts x (e.continued now w m).toFilter = true →
      (Selection.after w.lastSync).evaluate x = true

theorem Stages.fullResync_eq {σ τ : Type} [LocalStore σ] [SettingsStore τ] {transport : Transport}
    {store : σ} {settings : τ} {cycle : CycleRun σ τ}
    (h : e.Stages now transport store settings cycle) (hw : KeyStore.watermark settings = .ok w)
    {outcome : SyncOutcome} (hok : cycle.result = .ok outcome) :
    outcome.fullResync = e.isExpired now w := by
  cases h with
  | committed _ hw' =>
    cases hw.symm.trans hw'
    cases hok
    rfl
  | _ => simp at hok

/-- A cycle goes on from a watermark that is on record. -/
theorem resumes {σ τ : Type} [LocalStore σ] [SettingsStore τ] (h : e.Continues now w)
    {settings : τ} (hw : KeyStore.watermark settings = .ok w) (transport : Transport) (store : σ) :
    e.Resumes now w (e.run now transport store settings) where
  incremental outcome hok := by
    rw [(e.run_stages now transport store settings).fullResync_eq hw hok, h.isExpired_eq]
  models := by
    intro q hq name hname
    obtain ⟨w', hw', hfilters⟩ :=
      (e.run_stages now transport store settings).filters_of_sent hq
    cases hw.symm.trans hw'
    obtain ⟨m, hm, hmodel, hfilter⟩ := hfilters name hname
    exact ⟨m, hm, hmodel, by rw [hfilter, h.predicate_eq m]⟩
  later := by
    intro m hrebuilds x hx
    rw [continued, if_neg (by simp [hrebuilds])] at hx
    exact Selection.accepts_after hx

end Engine

end Replica
