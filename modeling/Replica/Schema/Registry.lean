/-
Replica.Schema.Registry — the models a replica keeps.

Models are kept in the order of their registration. A name is made of ASCII letters,
digits and underscores, is not empty, and is registered once; these facts are part of
the type.

Main statements:
* `register_models` — what an accepted registration does.
* `find?_of_mem` — a registered model is found under its name.
-/
import Replica.Schema.Model
import Replica.Text.Quoted

namespace Replica

/-- Why a look-up or a registration fails. -/
inductive SchemaError where
  | unknownModel (name : String)
  | emptyName
  | notAnIdentifier (name : String)
  | registeredTwice (name : String)
  deriving DecidableEq, Repr

namespace SchemaError

/-- The fault of an invalid schema, without the kind. -/
def reason : SchemaError → String
  | unknownModel name => name
  | emptyName => "model name must not be empty"
  | notAnIdentifier name => "model name " ++ Text.quoted name ++ " is not a valid identifier"
  | registeredTwice name => "model " ++ name ++ " registered twice"

def message : SchemaError → String
  | unknownModel name => "unknown model: " ++ name
  | e => "invalid schema: " ++ e.reason

end SchemaError

/-- The characters of model names and of plain field names. -/
def isWordChar (c : Char) : Bool := c.isAlphanum || c = '_'

/-- Whether a text is made of ASCII letters, digits and underscores only. -/
def isWord (s : String) : Bool := s.toList.all isWordChar

/-- The models of a replica, in registration order, and the version of the set. -/
structure Registry where
  version : String
  models : List ModelSchema
  words : ∀ m ∈ models, m.name ≠ "" ∧ m.plural ≠ "" ∧ isWord m.name = true
  distinct : (models.map (·.name)).Nodup

namespace Registry

def ofVersion (version : String) : Registry := ⟨version, [], by simp, by simp⟩

def modelNames (r : Registry) : List String := r.models.map (·.name)

def find? (r : Registry) (name : String) : Option ModelSchema :=
  r.models.find? (fun m => m.name = name)

def contains (r : Registry) (name : String) : Bool := r.models.any (fun m => m.name = name)

def get (r : Registry) (name : String) : Except SchemaError ModelSchema :=
  match r.find? name with
  | some m => .ok m
  | none => .error (.unknownModel name)

/-- The declared fields of a registered name. -/
def fieldsOf (r : Registry) (name : String) : Except SchemaError (List String) :=
  (r.get name).map ModelSchema.fieldNames

def capabilities (r : Registry) (name : String) : Except SchemaError Capabilities :=
  (r.get name).map ModelSchema.capabilities

/-- The registered model that a registered overlay is laid over. -/
def overlayTarget? (r : Registry) (name : String) : Option ModelSchema := do
  let overlay ← r.find? name
  let base ← overlay.overlayBase?
  r.find? base

/-- Add a model at the end. -/
def register (r : Registry) (m : ModelSchema) : Except SchemaError Registry :=
  if he : m.name = "" ∨ m.plural = "" then .error .emptyName
  else if hw : isWord m.name = true then
    if hd : m.name ∈ r.models.map (·.name) then .error (.registeredTwice m.name)
    else
      .ok {
        version := r.version
        models := r.models ++ [m]
        words := by
          intro x hx
          rcases List.mem_append.1 hx with hx | hx
          · exact r.words x hx
          · rw [List.mem_singleton.1 hx]
            exact ⟨fun h => he (.inl h), fun h => he (.inr h), hw⟩
        distinct := by
          rw [List.map_append, List.nodup_append]
          refine ⟨r.distinct, by simp, ?_⟩
          intro a ha b hb
          rw [List.map_singleton, List.mem_singleton] at hb
          intro hab
          exact hd (hb ▸ hab ▸ ha) }
  else .error (.notAnIdentifier m.name)

def registerAll (r : Registry) : List ModelSchema → Except SchemaError Registry
  | [] => .ok r
  | m :: rest => do (← r.register m).registerAll rest

/-- An accepted registration adds the model at the end and keeps the version. -/
theorem register_models {r r' : Registry} {m : ModelSchema} (h : r.register m = .ok r') :
    r'.models = r.models ++ [m] ∧ r'.version = r.version := by
  unfold register at h
  split at h
  · simp at h
  · split at h
    · split at h
      · simp at h
      · cases h
        exact ⟨rfl, rfl⟩
    · simp at h

/-- A registered model is found under its name. -/
theorem find?_of_mem {r : Registry} {m : ModelSchema} (hm : m ∈ r.models) :
    r.find? m.name = some m := by
  obtain ⟨version, models, words, distinct⟩ := r
  simp only [find?] at hm ⊢
  clear words
  induction models with
  | nil => simp at hm
  | cons x rest ih =>
    rw [List.map_cons, List.nodup_cons] at distinct
    rcases List.mem_cons.1 hm with rfl | hm
    · simp
    · have hne : x.name ≠ m.name := fun e => distinct.1 (e ▸ List.mem_map_of_mem hm)
      rw [List.find?_cons_of_neg (by simpa using hne)]
      exact ih distinct.2 hm

theorem contains_iff {r : Registry} {name : String} :
    r.contains name = true ↔ name ∈ r.modelNames := by
  simp [contains, modelNames]

theorem get_of_mem {r : Registry} {m : ModelSchema} (hm : m ∈ r.models) :
    r.get m.name = .ok m := by
  rw [get, find?_of_mem hm]

/-- A registered model has the capabilities that its schema declares. -/
theorem capabilities_of_mem (r : Registry) {m : ModelSchema} (hm : m ∈ r.models) :
    r.capabilities m.name = .ok m.capabilities := by
  rw [capabilities, get_of_mem hm]
  rfl

theorem capabilities_registered {r : Registry} {name : String} (h : name ∈ r.modelNames) :
    ∃ caps, r.capabilities name = .ok caps := by
  obtain ⟨m, hm, rfl⟩ := List.mem_map.1 h
  exact ⟨m.capabilities, r.capabilities_of_mem hm⟩

theorem get_unregistered {r : Registry} {name : String} (h : name ∉ r.modelNames) :
    r.get name = .error (.unknownModel name) := by
  have hnone : r.find? name = none := by
    refine List.find?_eq_none.2 ?_
    intro x hx hname
    exact h (List.mem_map.2 ⟨x, hx, of_decide_eq_true hname⟩)
  rw [get, hnone]

theorem capabilities_unregistered {r : Registry} {name : String} (h : name ∉ r.modelNames) :
    r.capabilities name = .error (.unknownModel name) := by
  rw [capabilities, get_unregistered h]
  rfl

end Registry

end Replica
