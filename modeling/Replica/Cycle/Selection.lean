/-
Replica.Cycle.Selection — which records a cycle still needs of each model.

The configured predicate of a model is narrowed by what the model declares: records
above the gray-release cohort, records of the configured locale, and, unless
everything is fetched, records updated after the last sync. Overlay models are fetched
in full when the locale has changed.

Main statement: `evaluate_selection`.
-/
import Replica.Predicate.Evaluate
import Replica.Schema.Registry

namespace Replica

/-- What the selections of one cycle share. -/
structure SelectionInputs where
  lastSync : Timestamp
  grayRelease : Int
  locale : Option String
  /-- Whether overlays are fetched in full. -/
  localeRebuild : Bool

/-- The records that a cycle needs of one model. -/
structure ModelSelection where
  model : String
  predicate : Predicate
  /-- Whether the time of the last sync is left out. -/
  fullFetch : Bool

namespace Selection

/-- Narrow a predicate by a clause, if there is one. -/
def narrow (p : Predicate) : Option Predicate → Predicate
  | some clause => p.both clause
  | none => p

/-- Records above a cohort, if the model declares cohorts. -/
def grayClause (caps : Capabilities) (cohort : Int) : Option Predicate :=
  if caps.grayRelease then some (.compare FieldName.grayRelease .gt (.int cohort)) else none

/-- Records of a locale, if the model declares locales and one is configured. -/
def localeClause (caps : Capabilities) (locale : Option String) : Option Predicate :=
  if caps.locale then locale.map fun tag => .compare FieldName.locale .eq (.str tag) else none

/-- Records updated after a time, unless it is zero. -/
def sinceClause (lastSync : Timestamp) : Option Predicate :=
  if lastSync.isZero then none
  else some (.compare FieldName.updatedAt .gt (.str lastSync.text))

/-- The records needed of a model with given capabilities. -/
def ofCapabilities (caps : Capabilities) (base : Predicate) (lastSync : Timestamp) (cohort : Int)
    (locale : Option String) : Predicate :=
  narrow (narrow (narrow base (grayClause caps cohort)) (localeClause caps locale))
    (sinceClause lastSync)

/-- The records needed of a registered model; models without a configured predicate
start from every record. -/
def forModel (r : Registry) (base : Dict Predicate) (model : String) (lastSync : Timestamp)
    (cohort : Int) (locale : Option String) : Except SchemaError Predicate :=
  (r.capabilities model).map fun caps =>
    ofCapabilities caps ((base.get? model).getD .all) lastSync cohort locale

/-- The records needed of one model in a cycle. -/
def ofSchema (base : Dict Predicate) (inputs : SelectionInputs) (m : ModelSchema) :
    ModelSelection :=
  let lastSync := if inputs.localeRebuild && m.isOverlay then .zero else inputs.lastSync
  ⟨m.name,
    ofCapabilities m.capabilities ((base.get? m.name).getD .all) lastSync inputs.grayRelease
      inputs.locale,
    lastSync.isZero⟩

/-- The records needed of every model, in registration order. -/
def every (r : Registry) (base : Dict Predicate) (inputs : SelectionInputs) :
    List ModelSelection :=
  r.models.map (ofSchema base inputs)

/-- A narrowed predicate selects what both parts select. -/
theorem evaluate_narrow (x : Record) (p : Predicate) (clause : Option Predicate) :
    (narrow p clause).evaluate x = (p.evaluate x && (clause.map (·.evaluate x)).getD true) := by
  cases clause with
  | none => simp [narrow]
  | some c => simp [narrow, Predicate.evaluate_both]

/-- A selection asks the base predicate and each clause that applies. -/
theorem evaluate_selection (x : Record) (caps : Capabilities) (base : Predicate)
    (lastSync : Timestamp) (cohort : Int) (locale : Option String) :
    (ofCapabilities caps base lastSync cohort locale).evaluate x =
      (((base.evaluate x && ((grayClause caps cohort).map (·.evaluate x)).getD true)
        && ((localeClause caps locale).map (·.evaluate x)).getD true)
        && ((sinceClause lastSync).map (·.evaluate x)).getD true) := by
  simp only [ofCapabilities, evaluate_narrow]

end Selection

end Replica
