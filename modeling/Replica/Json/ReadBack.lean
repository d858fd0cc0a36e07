/-
Replica.Json.ReadBack — what becomes of a value that is kept as its text.

A value that is written and read again comes back as it was, with two exceptions. A number
that is not whole comes back as what its digits come to step by step, which can be a
neighbour of it (`Double.reread?`); and a text whose arrays and objects nest too deep, or
that names a number beyond the greatest one, is refused (`isReadable`).

Main statements:
* `Fields.get?_reread` — each field comes back by itself;
* `asText?_reread`, `isNull_reread` — texts and `null` come back as they were.
-/
import Replica.Json.Parser
import Replica.Json.Printer

namespace Replica

/-- The number that the text of a number is read as; none if that is beyond the greatest
one. -/
def Double.reread? (x : Double) : Option Double :=
  match Json.Parser.number? (Json.realText x).toList with
  | some (.real y, []) => some y
  | _ => none

namespace Json

/-! ## Values -/

mutual

/-- A value as its text is read. -/
def reread : Json → Json
  | real x => real (x.reread?.getD x)
  | arr items => arr (rereadItems items)
  | obj entries => obj (rereadEntries entries)
  | null => null
  | bool b => bool b
  | int n => int n
  | str s => str s

def rereadItems : List Json → List Json
  | [] => []
  | item :: items => reread item :: rereadItems items

def rereadEntries : List (String × Json) → List (String × Json)
  | [] => []
  | (key, value) :: entries => (key, reread value) :: rereadEntries entries

end

mutual

/-- Whether the text of a value can be read, with some levels of nesting still allowed. -/
def isReadable (levels : Nat) : Json → Bool
  | real x => x.reread?.isSome
  | arr items => 0 < levels && itemsReadable (levels - 1) items
  | obj entries => 0 < levels && entriesReadable (levels - 1) entries
  | null => true
  | bool _ => true
  | int _ => true
  | str _ => true

def itemsReadable (levels : Nat) : List Json → Bool
  | [] => true
  | item :: items => isReadable levels item && itemsReadable levels items

def entriesReadable (levels : Nat) : List (String × Json) → Bool
  | [] => true
  | (_, value) :: entries => isReadable levels value && entriesReadable levels entries

end

@[simp] theorem asText?_reread (j : Json) : j.reread.asText? = j.asText? := by
  cases j <;> rfl

@[simp] theorem isNull_reread (j : Json) : j.reread.isNull = j.isNull := by
  cases j <;> rfl

end Json

/-! ## Fields -/

namespace Fields

/-- The fields of an object as its text is read. -/
def reread (fields : Fields) : Fields := fields.mapValues Json.reread

/-- Whether the text of an object with these fields can be read. -/
def isReadable (fields : Fields) : Bool :=
  fields.entries.all fun e => e.2.isReadable (Json.Parser.maxDepth - 1)

@[simp] theorem get?_reread (fields : Fields) (name : String) :
    fields.reread.get? name = (fields.get? name).map Json.reread :=
  Dict.get?_mapValues ..

end Fields

end Replica
