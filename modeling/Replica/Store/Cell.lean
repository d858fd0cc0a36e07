/-
Replica.Store.Cell — values as the database compares them.

A JSON value becomes a cell: `null` is missing, truth values are 0 and 1, integers of
64 bits with a sign stay integers, other numbers are reals, texts are texts, and
arrays and objects are their compact text. Missing cells come first in the order,
then numbers by their exact value, then texts by code points.
-/
import Replica.Json.Printer

namespace Replica

/-- One value of a row or of a query parameter. -/
inductive Cell where
  | missing
  | integer (value : Int)
  | real (value : Double)
  | text (value : String)
  deriving DecidableEq, Repr

namespace Cell

/-- The cell of a JSON value. -/
def ofJson : Json → Cell
  | .null => missing
  | .bool b => integer (if b then 1 else 0)
  | .int n =>
    match (Json.int n).asSigned64? with
    | some i => integer i
    | none => real (.ofInt n)
  | .real x => real x
  | .str s => text s
  | j => text j.text

/-- The cell of a field; a field that is not there is missing. -/
def ofField (fields : Fields) (name : String) : Cell := ((fields.get? name).map ofJson).getD missing

/-- Whether a cell is missing. -/
def isMissing : Cell → Bool
  | missing => true
  | _ => false

/-- Missing cells before numbers before texts. -/
def rank : Cell → Nat
  | missing => 0
  | integer _ => 1
  | real _ => 1
  | text _ => 2

def order : Cell → Cell → Ordering
  | integer a, integer b => compare a b
  | integer a, real b => Double.orderInt a b
  | real a, integer b => (Double.orderInt b a).swap
  | real a, real b => a.order b
  | text a, text b => compare a b
  | a, b => compare a.rank b.rank

/-- Reals have fifteen digits as text, at least one of them a fraction; exponents
have a sign and two digits and start below `1e-4` and from `1e15` on. -/
def realLayout : DecimalLayout := ⟨-4, 14, 2, true⟩

/-- The text that a text column makes of a real. -/
def realText (x : Double) : String :=
  let (digits, place) := x.significant 15
  String.ofList ((if x.negative && x.mantissa ≠ 0 then ['-'] else [])
    ++ realLayout.magnitudeText digits place)

/-- A cell as a text column compares it: numbers become texts. -/
def asText : Cell → Cell
  | integer n => text (toString n)
  | real x => text (realText x)
  | c => c

end Cell

end Replica
