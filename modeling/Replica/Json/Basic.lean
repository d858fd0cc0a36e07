/-
Replica.Json.Basic — JSON values.

Numbers come in two kinds: whole numbers, which the reader produces for literals
without fraction or exponent inside the 64-bit ranges, and binary64 numbers for all
other literals. The entries of an object are listed by increasing key; `ofDict` builds
such a value and `asObject?` reads one back as a dictionary.

Main statement: `asObject?_ofDict`.
-/
import Replica.Data.Dict
import Replica.Number.Double
import Replica.Text.Integer

namespace Replica

/-- A JSON value. -/
inductive Json where
  | null
  | bool (value : Bool)
  | int (value : Int)
  | real (value : Double)
  | str (value : String)
  | arr (items : List Json)
  | obj (entries : List (String × Json))
  deriving Inhabited

namespace Json

/-! ## Equality -/

mutual

def decEq : (a b : Json) → Decidable (a = b)
  | null, null => .isTrue rfl
  | bool a, bool b => decidable_of_iff (a = b) (by simp)
  | int a, int b => decidable_of_iff (a = b) (by simp)
  | real a, real b => decidable_of_iff (a = b) (by simp)
  | str a, str b => decidable_of_iff (a = b) (by simp)
  | arr a, arr b => have := decEqItems a b; decidable_of_iff (a = b) (by simp)
  | obj a, obj b => have := decEqEntries a b; decidable_of_iff (a = b) (by simp)
  | null, bool _ | null, int _ | null, real _ | null, str _ | null, arr _ | null, obj _
  | bool _, null | bool _, int _ | bool _, real _ | bool _, str _ | bool _, arr _ | bool _, obj _
  | int _, null | int _, bool _ | int _, real _ | int _, str _ | int _, arr _ | int _, obj _
  | real _, null | real _, bool _ | real _, int _ | real _, str _ | real _, arr _ | real _, obj _
  | str _, null | str _, bool _ | str _, int _ | str _, real _ | str _, arr _ | str _, obj _
  | arr _, null | arr _, bool _ | arr _, int _ | arr _, real _ | arr _, str _ | arr _, obj _
  | obj _, null | obj _, bool _ | obj _, int _ | obj _, real _ | obj _, str _ | obj _, arr _ =>
    .isFalse (by simp)

/-- Whether two lists of values are the same. -/
def decEqItems : (a b : List Json) → Decidable (a = b)
  | [], [] => .isTrue rfl
  | a :: as, b :: bs =>
    have := decEq a b
    have := decEqItems as bs
    decidable_of_iff (a = b ∧ as = bs) (by simp)
  | [], _ :: _ | _ :: _, [] => .isFalse (by simp)

/-- Whether two lists of entries are the same. -/
def decEqEntries : (a b : List (String × Json)) → Decidable (a = b)
  | [], [] => .isTrue rfl
  | (k, a) :: as, (j, b) :: bs =>
    have := decEq a b
    have := decEqEntries as bs
    decidable_of_iff ((k = j ∧ a = b) ∧ as = bs) (by simp)
  | [], _ :: _ | _ :: _, [] => .isFalse (by simp)

end

instance : DecidableEq Json := decEq

/-! ## Reading parts of a value -/

/-- The object of a dictionary. -/
def ofDict (d : Dict Json) : Json := obj d.entries

/-- An object given by its entries; of entries with one key the last counts. -/
def object (entries : List (String × Json)) : Json := ofDict (Dict.ofEntries entries)

def asObject? : Json → Option (Dict Json)
  | obj entries => some (Dict.ofEntries entries)
  | _ => none

def asArray? : Json → Option (List Json)
  | arr items => some items
  | _ => none

/-- The value under a key of an object. -/
def get? (j : Json) (key : String) : Option Json := j.asObject?.bind (·.get? key)

def asText? : Json → Option String
  | str s => some s
  | _ => none

def asBool? : Json → Option Bool
  | bool b => some b
  | _ => none

/-- A whole number that fits 64 bits with a sign. -/
def asSigned64? : Json → Option Int
  | int n => if -(Text.maxSigned64 + 1 : Int) ≤ n ∧ n ≤ Text.maxSigned64 then some n else none
  | _ => none

/-- A whole number that fits a limit and is not negative. -/
def asNatUpTo? (limit : Nat) : Json → Option Nat
  | int n => if 0 ≤ n ∧ n ≤ limit then some n.toNat else none
  | _ => none

/-- A whole number that fits 64 bits without a sign. -/
def asUnsigned64? (j : Json) : Option Nat := j.asNatUpTo? Text.maxUnsigned64

def isNull : Json → Bool
  | null => true
  | _ => false

/-- A text, or `null` for none. -/
def ofText? : Option String → Json
  | some s => str s
  | none => null

@[simp] theorem asObject?_ofDict (d : Dict Json) : (ofDict d).asObject? = some d := by
  simp [ofDict, asObject?]

end Json

/-- The fields of an object or of a record. -/
abbrev Fields := Dict Json

end Replica
