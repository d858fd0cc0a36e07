/-
Replica.Schema.Model — what the replica knows about one model.

A schema names the model, its plural for list queries, and its declared fields. Which
of the optional well-known fields are declared, and whether the model is a locale
overlay, decides how it is queried, ordered and merged. A model named `<Base>Locale`
overlays the model `<Base>`.
-/
import Replica.Record.Basic

namespace Replica

/-- The type of a declared field. -/
inductive FieldType where
  | id
  | string
  | int
  | float
  | boolean
  | dateTime
  | json
  deriving DecidableEq, Repr

/-- A declared field. -/
structure FieldDef where
  name : String
  type : FieldType
  deriving DecidableEq, Repr

/-- Which optional well-known fields a model declares. -/
structure Capabilities where
  grayRelease : Bool
  locale : Bool
  sort : Bool
  materialId : Bool
  localeOverlay : Bool
  deriving DecidableEq, Repr

/-- The description of one model. -/
structure ModelSchema where
  name : String
  plural : String
  fields : List FieldDef
  deriving DecidableEq, Repr

namespace ModelSchema

/-- The ending of an overlay model's name. -/
def overlaySuffix : String := "Locale"

/-- A schema that declares `id` alone; its plural adds an `s`. -/
def named (name : String) : ModelSchema := ⟨name, name ++ "s", [⟨FieldName.id, .id⟩]⟩

def withPlural (s : ModelSchema) (plural : String) : ModelSchema := { s with plural := plural }

/-- Declare a field last, in place of an earlier one of the same name. -/
def declare (s : ModelSchema) (name : String) (type : FieldType) : ModelSchema :=
  { s with fields := s.fields.filter (fun f => f.name ≠ name) ++ [⟨name, type⟩] }

def hasField (s : ModelSchema) (name : String) : Bool := s.fields.any (fun f => f.name = name)

def fieldNames (s : ModelSchema) : List String := s.fields.map (·.name)

/-- The name without the overlay ending, if something is left. -/
def overlayBase? (s : ModelSchema) : Option String :=
  let name := s.name.toList
  let ending := overlaySuffix.toList
  if ending.length < name.length ∧ ending.isSuffixOf name then
    some (String.ofList (name.take (name.length - ending.length)))
  else none

/-- Whether the model is a locale overlay by its name. -/
def isOverlay (s : ModelSchema) : Bool := s.overlayBase?.isSome

/-- What the declared fields and the name say. -/
def capabilities (s : ModelSchema) : Capabilities where
  grayRelease := s.hasField FieldName.grayRelease
  locale := s.hasField FieldName.locale
  sort := s.hasField FieldName.sort
  materialId := s.hasField FieldName.materialId
  localeOverlay := s.isOverlay

end ModelSchema

end Replica
