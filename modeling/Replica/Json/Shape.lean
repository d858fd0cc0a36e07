/-
Replica.Json.Shape — reading a composite value member by member.

A composite is written either as an object, whose unknown keys are ignored, or as an
array that lists the members in their declared order and nothing more. A member is
required, optional (absent from an object it counts as `null`; from an array it may
not be absent) or defaulted (absent from either it has its default). A choice is
written as the name of the case, or as an object with that one key.
-/
import Replica.Json.Basic

namespace Replica.Json

/-- Where the members of a composite are taken from. -/
inductive Members where
  | named (entries : Dict Json)
  | listed (rest : List Json)

/-- A reader of members, in their declared order. -/
abbrev Shape := StateT Members Option

namespace Shape

/-- The next member's value, if it is there. -/
def next (name : String) : Shape (Option Json) := fun source =>
  match source with
  | .named entries => some (entries.get? name, source)
  | .listed [] => some (none, source)
  | .listed (v :: rest) => some (some v, .listed rest)

/-- A member that has to be there. -/
def required {α : Type} (name : String) (read : Json → Option α) : Shape α := do
  match ← next name with
  | some v => StateT.lift (read v)
  | none => failure

/-- A member that is read when it is there and has a default otherwise. -/
def defaulted {α : Type} (name : String) (default : α) (read : Json → Option α) : Shape α := do
  match ← next name with
  | some v => StateT.lift (read v)
  | none => return default

/-- A member that may be `null`, and may be absent from an object. -/
def optional {α : Type} (name : String) (read : Json → Option (Option α)) :
    Shape (Option α) := fun source => do
  let (v, rest) ← next name source
  match v, source with
  | some v, _ => return (← read v, rest)
  | none, .named _ => return (none, rest)
  | none, .listed _ => none

/-- Read a composite; an array may not hold more than its members. -/
def read {α : Type} (shape : Shape α) : Json → Option α
  | obj entries => (shape (.named (Dict.ofEntries entries))).map (·.1)
  | arr items =>
    match shape (.listed items) with
    | some (a, .listed []) => some a
    | some (a, .named _) => some a
    | _ => none
  | _ => none

end Shape

/-! ## Parts -/

/-- A value or `null`. -/
def nullable? {α : Type} (read : Json → Option α) : Json → Option (Option α)
  | null => some none
  | j => (read j).map some

/-- Every item of an array. -/
def listOf? {α : Type} (read : Json → Option α) : Json → Option (List α)
  | arr items => items.mapM read
  | _ => none

/-- Every value of an object. -/
def dictOf? {α : Type} (read : Json → Option α) : Json → Option (Dict α)
  | obj entries => do
    let values ← (Dict.ofEntries entries).entries.mapM fun (k, v) => (read v).map (k, ·)
    return Dict.ofEntries values
  | _ => none

/-- The case of a choice and what stands with it. -/
def choice? : Json → Option (String × Option Json)
  | str name => some (name, none)
  | obj [(name, v)] => some (name, some v)
  | _ => none

/-- A case that carries nothing: its name alone, or the name with `null`. -/
def plainCase? {α : Type} (cases : String → Option α) (j : Json) : Option α :=
  match choice? j with
  | some (name, none) => cases name
  | some (name, some null) => cases name
  | _ => none

end Replica.Json
