/-
Replica.Number.Double — finite binary64 numbers as exact values.

A `Double` is `±m · 2^e` with a mantissa below `2^53` and an exponent of at least
`-1074`. Every such number is a whole multiple of `2^-1074`; `units` is that
multiple, so comparing two numbers, or a number with an integer, is comparing
integers. Rounding a ratio goes to the nearest number, and to the even mantissa
when two are equally near.

`ofDecimal?` rounds a decimal once. `ofSteps?` rounds at every step: first the digits,
then the power of ten, then their product or quotient; so it may miss the nearest number.
-/

namespace Replica

/-- A finite binary64 number `±mantissa · 2^exponent`. The mantissa has 53 bits
unless the exponent is the least one; zero has the least exponent. -/
structure Double where
  negative : Bool
  mantissa : Nat
  exponent : Int
  deriving DecidableEq, Repr

def twoTo (n : Nat) : Nat := Nat.pow 2 n

def tenTo (n : Nat) : Nat := Nat.pow 10 n

namespace Double

/-- The exponent of the smallest positive number. -/
def leastExponent : Int := -1074

/-- The exponent of the greatest number. -/
def greatestExponent : Int := 971

def zero (negative : Bool) : Double := ⟨negative, 0, leastExponent⟩

instance : Inhabited Double := ⟨zero false⟩

/-! ## Exact value -/

/-- The magnitude as a multiple of `2^-1074`. -/
def magnitude (x : Double) : Nat := x.mantissa * twoTo (x.exponent - leastExponent).toNat

/-- The value as a multiple of `2^-1074`. -/
def units (x : Double) : Int := if x.negative then -(x.magnitude : Int) else x.magnitude

/-- How many units make one. -/
def unitsOfOne : Nat := twoTo 1074

/-- The order of the values; the two zeros are equal. -/
def order (x y : Double) : Ordering := compare x.units y.units

/-- The order of an integer and a number. -/
def orderInt (n : Int) (y : Double) : Ordering := compare (n * unitsOfOne) y.units

/-- The integer a number equals, if it equals one. -/
def toInt? (x : Double) : Option Int :=
  if x.magnitude % unitsOfOne = 0 then some (x.units / unitsOfOne) else none

/-! ## Rounding -/

/-- The quotient to the nearest integer, and to the even one of two equally near. -/
def roundDiv (num den : Nat) : Nat :=
  let q := num / den
  let r := 2 * (num % den)
  if r < den then q
  else if den < r then q + 1
  else if q % 2 = 0 then q else q + 1

/-- The mantissa of `num / den` at an exponent. -/
def mantissaAt (num den : Nat) (e : Int) : Nat :=
  if 0 ≤ e then roundDiv num (den * twoTo e.toNat)
  else roundDiv (num * twoTo (-e).toNat) den

/-- Whether `num / den` is below `2^(52 + e)`. -/
def belowNormal (num den : Nat) (e : Int) : Bool :=
  let s := 52 + e
  if 0 ≤ s then num < den * twoTo s.toNat else num * twoTo (-s).toNat < den

/-- The exponent at which a positive ratio has a 53-bit mantissa, or the least
exponent if that is greater. -/
def exponentOf (num den : Nat) : Int :=
  let e : Int := (num.log2 : Int) - den.log2 - 52
  max leastExponent (if belowNormal num den e then e - 1 else e)

/-- The number nearest to `num / den`; `none` if that is beyond the greatest one. -/
def ofRatio? (negative : Bool) (num den : Nat) : Option Double :=
  if num = 0 then some (zero negative)
  else
    let e := exponentOf num den
    let m := mantissaAt num den e
    let (m, e) := if m = twoTo 53 then (twoTo 52, e + 1) else (m, e)
    if greatestExponent < e then none else some ⟨negative, m, e⟩

/-- The number nearest to an integer of at most 64 bits. -/
def ofInt (n : Int) : Double := (ofRatio? (n < 0) n.natAbs 1).getD (zero false)

/-- The number nearest to `digits · 10^exp`; `none` if that is beyond the greatest one. -/
def ofDecimal? (negative : Bool) (digits : Nat) (exp : Int) : Option Double :=
  let places : Int := (Nat.toDigits 10 digits).length + exp
  if digits = 0 then some (zero negative)
  else if 311 < places then none
  else if places < -345 then some (zero negative)
  else if 0 ≤ exp then ofRatio? negative (digits * tenTo exp.toNat) 1
  else ofRatio? negative digits (tenTo (-exp).toNat)

/-! ## Steps that are rounded each -/

/-- The number nearest to `num / den · 2^e`; `none` if that is beyond the greatest one. -/
def ofScaled? (negative : Bool) (num den : Nat) (e : Int) : Option Double :=
  if 0 ≤ e then ofRatio? negative (num * twoTo e.toNat) den
  else ofRatio? negative num (den * twoTo (-e).toNat)

/-- The product with a positive number. -/
def times? (x y : Double) : Option Double :=
  ofScaled? x.negative (x.mantissa * y.mantissa) 1 (x.exponent + y.exponent)

/-- The quotient by a positive number. -/
def over? (x y : Double) : Option Double :=
  ofScaled? x.negative x.mantissa y.mantissa (x.exponent - y.exponent)

/-- The greatest power of ten that is a number. -/
def greatestPower : Nat := 308

/-- The number nearest to a power of ten up to the greatest one. -/
def powerOfTen (places : Nat) : Double := (ofRatio? false (tenTo places) 1).getD (zero false)

/-- Divide by a power of ten, by the greatest one as long as it is needed. The first number
bounds the steps: of an integer of 64 bits nothing is left after the second one. -/
def lowered? : Nat → Double → Nat → Option Double
  | 0, x, _ => some (zero x.negative)
  | steps + 1, x, places =>
    if places ≤ greatestPower then x.over? (powerOfTen places)
    else
      match x.over? (powerOfTen greatestPower) with
      | some y => lowered? steps y (places - greatestPower)
      | none => none

/-- The number that `significand · 10^exp` comes to step by step; `none` if a step goes beyond
the greatest one. -/
def ofSteps? (negative : Bool) (significand : Nat) (exp : Int) : Option Double :=
  match ofRatio? negative significand 1 with
  | none => none
  | some x =>
    if exp < 0 then lowered? 3 x (-exp).toNat
    else if significand = 0 then some x
    else if greatestPower < exp then none
    else x.times? (powerOfTen exp.toNat)

end Double

end Replica
