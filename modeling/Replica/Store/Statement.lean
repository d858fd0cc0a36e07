/-
Replica.Store.Statement — how large the statement of a query may be.

A database prepares a statement before it runs it, and refuses one that is too large:
* its parser keeps at most a fixed number of symbols at once, and a nested part is
  read while the symbols before it are still kept;
* the tree of an expression has a greatest height; `AND` and `OR` join two sides, so a
  list of parts leans to the left and grows by one with every part;
* a statement has a greatest number of parameters.

An `AND` with the literal `0` on either side is the literal `0` at once, so it is no
higher than one.

Main statements:
* `fits_always`, `fits_compare` — conditions without parts always fit.
-/
import Replica.Store.Condition

namespace Replica

namespace Condition

/-! ## Symbols -/

mutual

/-- How many symbols the parser keeps at once for a condition. A field is read by a
function call within its comparison; a complement is a call within a negation. -/
def symbols : Condition → Nat
  | always => 1
  | compare column op _ =>
    match column, op with
    | .field _, _ => 7
    | .id, .ne => 5
    | .id, _ => 4
  | allOf parts => listSymbols parts
  | anyOf parts => listSymbols parts
  | complement part => Nat.max 8 (5 + symbols part)

/-- The symbols of a list in parentheses; an empty list is a literal. -/
def listSymbols : List Condition → Nat
  | [] => 1
  | c :: cs => 1 + Nat.max 2 (Nat.max (symbols c) (laterSymbols cs))

/-- The symbols of the parts after the first, each behind what stands before it and the
connective. -/
def laterSymbols : List Condition → Nat
  | [] => 0
  | c :: cs => Nat.max (2 + symbols c) (laterSymbols cs)

end

/-! ## Height -/

mutual

/-- Whether a condition is the literal `0` once it is parsed. -/
def isZero : Condition → Bool
  | allOf parts => someZero parts
  | anyOf [] => true
  | anyOf [c] => isZero c
  | _ => false

/-- Whether some condition of a list is the literal `0`. -/
def someZero : List Condition → Bool
  | [] => false
  | c :: cs => isZero c || someZero cs

end

/-- The greatest height of an expression. -/
def heightLimit : Nat := 1000

/-- A height, unless it exceeds the limit. -/
def limited (height : Nat) : Option Nat := if height ≤ heightLimit then some height else none

mutual

/-- The height of the expression of a condition, unless an expression on the way to it
exceeds the limit. -/
def height? : Condition → Option Nat
  | always => some 1
  | compare column _ _ =>
    match column with
    | .id => some 2
    | .field _ => some 3
  | allOf [] => some 1
  | allOf (c :: cs) =>
    match height? c with
    | none => none
    | some h => allHeight? h (isZero c) cs
  | anyOf [] => some 1
  | anyOf (c :: cs) =>
    match height? c with
    | none => none
    | some h => anyHeight? h cs
  | complement part =>
    match height? part with
    | none => none
    | some h => limited (h + 2)

/-- The height once a list of parts is joined by `AND` to an expression of a height,
which may be the literal `0`. -/
def allHeight? (before : Nat) (zero : Bool) : List Condition → Option Nat
  | [] => some before
  | c :: cs =>
    match height? c with
    | none => none
    | some h =>
      if zero || isZero c then allHeight? 1 true cs
      else
        match limited (Nat.max before h + 1) with
        | none => none
        | some joined => allHeight? joined false cs

/-- The height once a list of parts is joined by `OR` to an expression of a height. -/
def anyHeight? (before : Nat) : List Condition → Option Nat
  | [] => some before
  | c :: cs =>
    match height? c with
    | none => none
    | some h =>
      match limited (Nat.max before h + 1) with
      | none => none
      | some joined => anyHeight? joined cs

end

/-! ## Limits -/

/-- The greatest number of symbols of a condition; the parser keeps 99, and five of them
are the statement before its condition. -/
def symbolLimit : Nat := 94

/-- The greatest number of parameters. -/
def paramLimit : Nat := 32766

/-- Whether the statement that queries by a condition can be prepared. -/
def fits (c : Condition) : Bool :=
  c.symbols ≤ symbolLimit && c.height?.isSome && c.params.length ≤ paramLimit

theorem fits_always : fits always = true := by decide

theorem fits_compare (column : Column) (op : Operator) (param : Cell) :
    fits (compare column op param) = true := by
  cases column <;> cases op <;> simp [fits, symbols, height?, params, symbolLimit, paramLimit]

end Condition

end Replica
