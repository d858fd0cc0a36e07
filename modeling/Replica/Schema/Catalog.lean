/-
Replica.Schema.Catalog — models on record, laid out for look-ups.

A registry is the models on record and nothing else. A catalog is how they are kept while they
are registered: two rows, one of the models and one of what each of them can do, and for every
name the place of its model in both. A registration changes the three one after the other, and
what a call has changed before it fails stays changed; so a model has to be refused before the
first change (`perform_register`).
-/
import Replica.Data.Dict
import Replica.Schema.Registry

namespace Replica

/-- Models in the order of their registration, what each of them can do, and the places of their
names in both rows. -/
structure Catalog where
  version : String
  models : Array ModelSchema
  derived : Array Capabilities
  places : Dict Nat

namespace Catalog

def ofVersion (version : String) : Catalog := ⟨version, #[], #[], .empty⟩

/-! ## Registrations -/

/-- Work on a catalog that may fail on the way. -/
abbrev Call (α : Type) := ExceptT SchemaError (StateM Catalog) α

/-- What a call answers, and the catalog that it leaves. -/
def perform {α : Type} (c : Catalog) (call : Call α) : Except SchemaError α × Catalog := call c

/-- Put a model at the end of both rows, and its place under its name. -/
def add (m : ModelSchema) : Call Unit := do
  modify fun c => { c with places := c.places.insert m.name c.models.size }
  modify fun c => { c with derived := c.derived.push m.capabilities }
  modify fun c => { c with models := c.models.push m }

/-- Put a model on record, if its names are fit for it and new. -/
def register (m : ModelSchema) : Call Unit := do
  if m.name = "" ∨ m.plural = "" then throw .emptyName
  else if isWord m.name = false then throw (.notAnIdentifier m.name)
  else if (← getThe Catalog).places.contains m.name then throw (.registeredTwice m.name)
  else add m

/-- Register models one after another, whatever the answers are. -/
def registerEach (c : Catalog) : List ModelSchema → List (Except SchemaError Unit) × Catalog
  | [] => ([], c)
  | m :: rest =>
    let (answer, next) := c.perform (register m)
    let (answers, left) := next.registerEach rest
    (answer :: answers, left)

/-! ## Look-ups -/

def modelNames (c : Catalog) : List String := c.models.toList.map (·.name)

def contains (c : Catalog) (name : String) : Bool := c.places.contains name

/-- What stands in a row at the place of a name. A place behind the end of the row would read
like an unknown name, and `contains` would tell the two apart. -/
def readAt {α : Type} (c : Catalog) (row : Array α) (name : String) : Except SchemaError α :=
  match (c.places.get? name).bind fun place => row[place]? with
  | some x => .ok x
  | none => .error (.unknownModel name)

def get (c : Catalog) (name : String) : Except SchemaError ModelSchema := c.readAt c.models name

/-- The declared fields of a name on record. -/
def fieldsOf (c : Catalog) (name : String) : Except SchemaError (List String) :=
  (c.get name).map ModelSchema.fieldNames

def capabilities (c : Catalog) (name : String) : Except SchemaError Capabilities :=
  c.readAt c.derived name

/-- The model on record that an overlay on record is laid over. -/
def overlayTarget? (c : Catalog) (name : String) : Option ModelSchema := do
  let overlay ← (c.get name).toOption
  let base ← overlay.overlayBase?
  (c.get base).toOption

/-- The name that is reached by going on so many times from an overlay to its base. -/
def follow (c : Catalog) : Nat → String → Option String
  | 0, name => some name
  | steps + 1, name => (c.overlayTarget? name).bind fun base => c.follow steps base.name

/-! ## What a registration does -/

/-- A model is refused for its names or put at the end of both rows; a catalog that refuses is
left as it was. -/
theorem perform_register (c : Catalog) (m : ModelSchema) :
    c.perform (register m) =
      if m.name = "" ∨ m.plural = "" then (.error .emptyName, c)
      else if isWord m.name = false then (.error (.notAnIdentifier m.name), c)
      else if c.contains m.name then (.error (.registeredTwice m.name), c)
      else (.ok (), ⟨c.version, c.models.push m, c.derived.push m.capabilities,
        c.places.insert m.name c.models.size⟩) := by
  rw [register]
  by_cases hempty : m.name = "" ∨ m.plural = ""
  · rw [if_pos hempty, if_pos hempty]
    rfl
  · rw [if_neg hempty, if_neg hempty]
    by_cases hword : isWord m.name = false
    · rw [if_pos hword, if_pos hword]
      rfl
    · rw [if_neg hword, if_neg hword]
      change c.perform (if c.contains m.name then _ else add m) = _
      split <;> rfl

end Catalog

end Replica
