/-
Replica.Proofs.Cycle.StartTime — the time after which a cycle asks for the records of a model.

A cycle goes on from the time on record, but for three reasons to ask for everything: the time
has expired, another model set is on record, or the model is an overlay and another locale is
on record (`startFor`). What the cycle needs of the model is what it needs after this time
(`predicate_startFor`).
-/
import Replica.Proofs.Cycle.Watermark

namespace Replica.Engine

/-- The recorded time is not zero and older than the configured interval. -/
def Expired (e : Engine) (now : Timestamp) (w : Watermark) : Prop :=
  0 < w.lastSync.millis
    ∧ e.config.expireInterval.totalNanos < (now.millis - w.lastSync.millis) * 1000000

instance (e : Engine) (now : Timestamp) (w : Watermark) : Decidable (e.Expired now w) :=
  inferInstanceAs (Decidable (_ ∧ _))

/-- A model set is on record, and it is another one. -/
def OtherModels (e : Engine) (w : Watermark) : Prop :=
  w.modelSetVersion ≠ none ∧ w.modelSetVersion ≠ some e.registry.version

instance (e : Engine) (w : Watermark) : Decidable (e.OtherModels w) :=
  inferInstanceAs (Decidable (_ ∧ _))

/-- A model is an overlay of another locale than the configured one. -/
def OtherLocale (e : Engine) (w : Watermark) (m : ModelSchema) : Prop :=
  m.isOverlay = true ∧ w.locale ≠ e.config.locale

instance (e : Engine) (w : Watermark) (m : ModelSchema) : Decidable (e.OtherLocale w m) :=
  inferInstanceAs (Decidable (_ ∧ _))

/-- The time after which a cycle asks for the records of a model; zero stands for all of them. -/
def startFor (e : Engine) (now : Timestamp) (w : Watermark) (m : ModelSchema) : Timestamp :=
  if e.Expired now w ∨ e.OtherModels w ∨ e.OtherLocale w m then .zero else w.lastSync

theorem modelSetChanged_iff (e : Engine) (w : Watermark) :
    e.modelSetChanged w = true ↔ e.OtherModels w := by
  rw [modelSetChanged, OtherModels]
  cases w.modelSetVersion <;> simp

/-- What a cycle needs of a model is what it needs after the time it starts from. -/
theorem predicate_startFor (e : Engine) (now : Timestamp) (w : Watermark) (m : ModelSchema) :
    (Selection.ofSchema e.config.syncExpressions (e.inputs now w) m).predicate
      = Selection.ofCapabilities m.capabilities ((e.config.syncExpressions.get? m.name).getD .all)
          (e.startFor now w m) e.config.effectiveGrayRelease e.config.locale := by
  have hstart : (if (e.inputs now w).localeRebuild && m.isOverlay then Timestamp.zero
      else (e.inputs now w).lastSync) = e.startFor now w m := by
    have hrebuilds : ((e.inputs now w).localeRebuild && m.isOverlay) = true
        ↔ e.OtherLocale w m := by
      simp [inputs, OtherLocale, Watermark.localeChanged, and_comm]
    have hrestarts : (e.isExpired now w || e.modelSetChanged w) = true
        ↔ e.Expired now w ∨ e.OtherModels w := by
      rw [Bool.or_eq_true, e.isExpired_iff, e.modelSetChanged_iff, Expired]
    have hlastSync : (e.inputs now w).lastSync
        = if e.isExpired now w || e.modelSetChanged w then .zero else w.lastSync := rfl
    rw [startFor]
    by_cases hlocale : e.OtherLocale w m
    · rw [if_pos (hrebuilds.2 hlocale), if_pos (.inr (.inr hlocale))]
    · rw [if_neg fun h => hlocale (hrebuilds.1 h), hlastSync]
      by_cases hall : e.Expired now w ∨ e.OtherModels w
      · rw [if_pos (hrestarts.2 hall), if_pos (hall.imp_right .inl)]
      · rw [if_neg fun h => hall (hrestarts.1 h), if_neg]
        rintro (h | h | h)
        · exact hall (.inl h)
        · exact hall (.inr h)
        · exact hlocale h
  rw [← hstart]
  rfl

/-- From a time that the engine itself has recorded only its age decides. -/
theorem startFor_reached (e : Engine) (now t : Timestamp) (m : ModelSchema) :
    e.startFor now (e.reached t) m = if e.Expired now (e.reached t) then .zero else t := by
  have hmodels : ¬e.OtherModels (e.reached t) := fun h => h.2 rfl
  have hlocale : ¬e.OtherLocale (e.reached t) m := fun h => h.2 rfl
  rw [startFor]
  simp only [hmodels, hlocale, or_false]
  rfl

end Replica.Engine
