/-
Replica.Text.Integer — reading decimal integers of a bounded range.

An integer is written as an optional sign and at least one digit; leading zeros
count as digits and nothing else may stand in the text. A minus sign is only
accepted where negative numbers are in range. Digits are read from the left, and
the first fault met on the way is the one reported: a text that leaves the range
before its first bad character is out of range, not malformed.
-/

namespace Replica.Text

/-- Why a text is not an integer of the wanted range. -/
inductive IntegerFault where
  | emptyText
  | badDigit
  | tooLarge
  | tooSmall
  deriving DecidableEq, Repr

namespace IntegerFault

def message : IntegerFault → String
  | emptyText => "cannot parse integer from empty string"
  | badDigit => "invalid digit found in string"
  | tooLarge => "number too large to fit in target type"
  | tooSmall => "number too small to fit in target type"

end IntegerFault

def digitValue? (c : Char) : Option Nat :=
  if c.isDigit then some (c.toNat - '0'.toNat) else none

/-- Read digits onto a value that may not pass `limit`; `beyond` is the fault of
passing it. -/
def readDigits (limit : Nat) (beyond : IntegerFault) : Nat → List Char → Except IntegerFault Nat
  | value, [] => .ok value
  | value, c :: rest =>
    match digitValue? c with
    | none => .error .badDigit
    | some d =>
      let next := value * 10 + d
      if limit < next then .error beyond else readDigits limit beyond next rest

/-- Read an integer between `-low` and `high`. -/
def readInteger (low high : Nat) (cs : List Char) : Except IntegerFault Int :=
  match cs with
  | [] => .error .emptyText
  | '+' :: [] => .error .badDigit
  | '-' :: [] => .error .badDigit
  | '+' :: rest => (readDigits high .tooLarge 0 rest).map Int.ofNat
  | '-' :: rest =>
    if low = 0 then .error .badDigit
    else (readDigits low .tooSmall 0 rest).map fun n => -(n : Int)
  | rest => (readDigits high .tooLarge 0 rest).map Int.ofNat

def maxSigned64 : Nat := 9223372036854775807

def maxUnsigned64 : Nat := 18446744073709551615

def readSigned64 (s : String) : Except IntegerFault Int :=
  readInteger (maxSigned64 + 1) maxSigned64 s.toList

def readUnsigned64 (s : String) : Except IntegerFault Nat :=
  (readInteger 0 maxUnsigned64 s.toList).map Int.toNat

end Replica.Text
