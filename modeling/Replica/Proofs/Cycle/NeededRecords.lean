/-
Replica.Proofs.Cycle.NeededRecords — a built predicate selects the records that are needed.

The predicate of a registered model is its configured one, narrowed by what the model declares
and by the time of the last sync. Narrowing joins lists of conjuncts, and whatever shape the
configured predicate has, a record is selected exactly when it passes the configured predicate
and every clause that applies (`evaluate_ofCapabilities`). The clause of the time compares
texts; up to the year 9999 it holds of the records that were updated later. The main statement
is `needed_selected`.
-/
import Replica.Proofs.Predicate.FilterMeaning

namespace Replica.Selection

open Predicate

/-! ## The clauses -/

theorem clause_selects {x : Record} {clause : Option Predicate} :
    (clause.map (·.evaluate x)).getD true = true ↔ ∀ q ∈ clause, q.evaluate x = true := by
  cases clause <;> simp

theorem mem_grayClause {caps : Capabilities} {cohort : Int} {q : Predicate} :
    q ∈ grayClause caps cohort
      ↔ caps.grayRelease = true ∧ q = .compare FieldName.grayRelease .gt (.int cohort) := by
  rw [grayClause]
  by_cases hdeclared : caps.grayRelease = true
  · rw [if_pos hdeclared, Option.mem_some_iff]
    exact ⟨fun h => ⟨hdeclared, h.symm⟩, fun h => h.2.symm⟩
  · simp [hdeclared]

theorem mem_localeClause {caps : Capabilities} {locale : Option String} {q : Predicate} :
    q ∈ localeClause caps locale
      ↔ caps.locale = true ∧ ∃ tag ∈ locale, q = .compare FieldName.locale .eq (.str tag) := by
  rw [localeClause]
  by_cases hdeclared : caps.locale = true
  · rw [if_pos hdeclared]
    cases locale with
    | none => simp
    | some tag =>
      rw [Option.map_some, Option.mem_some_iff]
      simp only [hdeclared, Option.mem_some_iff, exists_eq_left', true_and]
      exact eq_comm
  · simp [hdeclared]

theorem mem_sinceClause {lastSync : Timestamp} {q : Predicate} :
    q ∈ sinceClause lastSync ↔ lastSync.millis ≠ 0
      ∧ q = .compare FieldName.updatedAt .gt (.str lastSync.text) := by
  rw [sinceClause, Timestamp.isZero]
  by_cases hzero : lastSync.millis = 0
  · simp [hzero]
  · rw [if_neg (by simpa using hzero), Option.mem_some_iff]
    exact ⟨fun h => ⟨hzero, h.symm⟩, fun h => h.2.symm⟩

/-! ## What is selected -/

/-- A record is still needed of a model after a time: it passes the configured predicate, it
lies above the cohort and has the locale where the model declares these, and it was updated
later unless the time is zero. -/
structure Needs (m : ModelSchema) (base : Predicate) (lastSync : Timestamp) (cohort : Int)
    (locale : Option String) (x : Record) : Prop where
  configured : base.evaluate x = true
  released : m.hasField FieldName.grayRelease = true →
    (Predicate.compare FieldName.grayRelease .gt (.int cohort)).evaluate x = true
  spoken : m.hasField FieldName.locale = true → ∀ tag ∈ locale,
    (Predicate.compare FieldName.locale .eq (.str tag)).evaluate x = true
  updated : lastSync.millis ≠ 0 →
    (Predicate.compare FieldName.updatedAt .gt (.str lastSync.text)).evaluate x = true

/-- The predicate for what a model declares selects the records that are needed of it. -/
theorem evaluate_ofCapabilities (m : ModelSchema) (base : Predicate) (lastSync : Timestamp)
    (cohort : Int) (locale : Option String) (x : Record) :
    (ofCapabilities m.capabilities base lastSync cohort locale).evaluate x = true
      ↔ Needs m base lastSync cohort locale x := by
  rw [evaluate_selection]
  simp only [Bool.and_eq_true, clause_selects]
  constructor
  · rintro ⟨⟨⟨hbase, hgray⟩, hlocale⟩, hsince⟩
    refine ⟨hbase, ?_, ?_, ?_⟩
    · intro hdeclared
      exact hgray _ (mem_grayClause.2 ⟨hdeclared, rfl⟩)
    · intro hdeclared tag htag
      exact hlocale _ (mem_localeClause.2 ⟨hdeclared, tag, htag, rfl⟩)
    · intro hstarted
      exact hsince _ (mem_sinceClause.2 ⟨hstarted, rfl⟩)
  · intro hneeds
    refine ⟨⟨⟨hneeds.configured, ?_⟩, ?_⟩, ?_⟩
    · intro q hq
      obtain ⟨hdeclared, rfl⟩ := mem_grayClause.1 hq
      exact hneeds.released hdeclared
    · intro q hq
      obtain ⟨hdeclared, tag, htag, rfl⟩ := mem_localeClause.1 hq
      exact hneeds.spoken hdeclared tag htag
    · intro q hq
      obtain ⟨hstarted, rfl⟩ := mem_sinceClause.1 hq
      exact hneeds.updated hstarted

/-- The predicate of a registered model is that for what its schema declares. -/
theorem forModel_of_mem (r : Registry) (base : Dict Predicate) {m : ModelSchema}
    (hm : m ∈ r.models) (lastSync : Timestamp) (cohort : Int) (locale : Option String) :
    forModel r base m.name lastSync cohort locale
      = .ok (ofCapabilities m.capabilities ((base.get? m.name).getD .all) lastSync cohort
          locale) := by
  rw [forModel, r.capabilities_of_mem hm]
  rfl

/-- **Needed records.** A predicate is built for registered models and for no others. It selects
the records that are needed of the model, however the configured predicate is put together. A
record that carries the text of a time passes the clause of the last sync exactly when that
time is later, as long as both times lie before the year 10000. -/
theorem needed_selected (r : Registry) (base : Dict Predicate) (model : String)
    (lastSync : Timestamp) (cohort : Int) (locale : Option String) :
    (model ∉ r.modelNames →
      forModel r base model lastSync cohort locale = .error (.unknownModel model))
    ∧ (∀ m ∈ r.models, m.name = model → ∃ p,
        forModel r base model lastSync cohort locale = .ok p
          ∧ ∀ x, p.evaluate x = true
              ↔ Needs m ((base.get? model).getD .all) lastSync cohort locale x)
    ∧ ∀ (x : Record) (u : Timestamp), x.get? FieldName.updatedAt = some (.str u.text) →
        u.millis ≤ Timestamp.lastShort → lastSync.millis ≤ Timestamp.lastShort →
        ((Predicate.compare FieldName.updatedAt .gt (.str lastSync.text)).evaluate x = true
          ↔ lastSync.millis < u.millis) := by
  refine ⟨?_, ?_, ?_⟩
  · intro hmodel
    rw [forModel, Registry.capabilities_unregistered hmodel]
    rfl
  · intro m hm hname
    subst hname
    refine ⟨_, forModel_of_mem r base hm lastSync cohort locale, ?_⟩
    intro x
    exact evaluate_ofCapabilities m _ lastSync cohort locale x
  · intro x u hx hu hsync
    rw [evaluate, updatedAt_gt hx hsync hu, decide_eq_true_iff]

/-! ### Banners that are needed -/

/-- Banners have cohorts and locales. -/
def banners : Registry where
  version := "v1"
  models := [((ModelSchema.named "Banner").declare FieldName.grayRelease .int).declare
    FieldName.locale .string]
  words := by decide +kernel
  distinct := by decide +kernel

/-- Of banners only those that are no drafts. -/
def finished : Dict Predicate :=
  Dict.ofEntries [("Banner", .anyOf [.complement (.compare "stage" .eq (.str "draft")),
    .allOf [.all, .anyOf []]])]

/-- A French banner of a cohort that was updated at a time. -/
def bannerAt (cohort : Int) (t : Timestamp) : Record :=
  ⟨"Banner", "b1", Dict.ofEntries [(FieldName.grayRelease, .int cohort),
    (FieldName.locale, .str "fr"), (FieldName.updatedAt, .str t.text)]⟩

theorem bannerAt_updatedAt (cohort : Int) (t : Timestamp) :
    (bannerAt cohort t).get? FieldName.updatedAt = some (.str t.text) := by
  have hid : FieldName.updatedAt ≠ FieldName.id := by decide
  simp [Record.get?, bannerAt, Dict.ofEntries, Dict.insertAll, hid, Json.isNull]

/-- Above cohort 3 a French banner is needed after 1000 when it was updated at 1001, and not
when it was updated at 1000; nothing is asked of posters. -/
theorem bannerAt_needed :
    ∃ p, forModel banners finished "Banner" ⟨1000⟩ 3 (some "fr") = .ok p
      ∧ p.evaluate (bannerAt 4 ⟨1001⟩) = true
      ∧ p.evaluate (bannerAt 3 ⟨1001⟩) = false
      ∧ p.evaluate (bannerAt 4 ⟨1000⟩) = false
      ∧ forModel banners finished "Poster" ⟨1000⟩ 3 (some "fr")
          = .error (.unknownModel "Poster") := by
  have hshort : (1001 : Nat) ≤ Timestamp.lastShort := by decide
  obtain ⟨-, hbuilt, hlater⟩ :=
    needed_selected banners finished "Banner" ⟨1000⟩ 3 (some "fr")
  obtain ⟨p, hp, hselects⟩ := hbuilt _ (List.mem_singleton.2 rfl) rfl
  refine ⟨p, hp, ?_, ?_, ?_, (needed_selected banners finished "Poster" ⟨1000⟩ 3 (some "fr")).1
    (by decide +kernel)⟩
  · refine (hselects _).2 ⟨by decide +kernel, ?_, ?_, ?_⟩
    · intro hdeclared
      decide +kernel
    · intro hdeclared tag htag
      cases htag
      decide +kernel
    · intro hstarted
      exact (hlater _ ⟨1001⟩ (bannerAt_updatedAt 4 _) hshort (by decide)).2 (by decide)
  · refine Bool.eq_false_iff.2 fun hselected => ?_
    have hreleased := ((hselects _).1 hselected).released (by decide +kernel)
    revert hreleased
    decide +kernel
  · refine Bool.eq_false_iff.2 fun hselected => ?_
    have hupdated := ((hselects _).1 hselected).updated (by decide)
    have hearlier := (hlater _ ⟨1000⟩ (bannerAt_updatedAt 4 _) (by decide) (by decide)).1 hupdated
    exact Nat.lt_irrefl _ hearlier

end Replica.Selection
