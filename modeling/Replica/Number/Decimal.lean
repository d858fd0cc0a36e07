/-
Replica.Number.Decimal — decimal text of finite binary64 numbers.

`shortest` gives the fewest digits that read back as the number, and of the texts
with that many digits the nearest one; `significant` gives a fixed count of
digits. A `DecimalLayout` says how digits and the place of the first one become
text: where positional notation ends and what the exponent looks like.

`Extended` adds the two infinities and the non-number that a text can also name.
-/
import Replica.Number.Double
import Replica.Text.Integer

namespace Replica

namespace Double

/-! ## Digits -/

/-- Whether `10^k` is at most `num / den`. -/
def powerLe (num den : Nat) (k : Int) : Bool :=
  if 0 ≤ k then den * tenTo k.toNat ≤ num else den ≤ num * tenTo (-k).toNat

/-- The place of the first digit of a positive ratio: the greatest `k` with `10^k`
at most the ratio. -/
def firstPlace (num den : Nat) : Int :=
  let guess : Int := ((num.log2 : Int) - den.log2) * 30103 / 100000
  if powerLe num den (guess + 1) then guess + 1
  else if powerLe num den guess then guess
  else guess - 1

/-- `⌊(num / den) / 10^g⌋`. -/
def floorAt (num den : Nat) (g : Int) : Nat :=
  if 0 ≤ g then num / (den * tenTo g.toNat) else num * tenTo (-g).toNat / den

/-- Twice the distance of `num / den` above the grid point `d · 10^g`, compared
with one grid step. -/
def overHalf (num den d : Nat) (g : Int) : Ordering :=
  let (n, s) := if 0 ≤ g then (num, den * tenTo g.toNat) else (num * tenTo (-g).toNat, den)
  compare (2 * (n - d * s)) s

/-- The reals that round to a positive number, in quarters of a unit: the two ends
and whether the ends belong to them. -/
structure RoundingInterval where
  low : Nat
  high : Nat
  closed : Bool

/-- The interval of a positive number. The gap below a power of two is half the gap
above it. -/
def interval (x : Double) : RoundingInterval :=
  let gap := twoTo (x.exponent - leastExponent).toNat
  let below := if x.mantissa = twoTo 52 ∧ leastExponent < x.exponent then gap else 2 * gap
  ⟨4 * x.magnitude - below, 4 * x.magnitude + 2 * gap, x.mantissa % 2 = 0⟩

/-- Whether `d · 10^g` lies in the interval. -/
def RoundingInterval.holds (i : RoundingInterval) (d : Nat) (g : Int) : Bool :=
  let quarters := 4 * unitsOfOne
  let (low, point, high) :=
    if 0 ≤ g then (i.low, d * tenTo g.toNat * quarters, i.high)
    else (i.low * tenTo (-g).toNat, d * quarters, i.high * tenTo (-g).toNat)
  if i.closed then low ≤ point && point ≤ high else low < point && point < high

/-- Look for a point of the interval with `n` digits, then with more. -/
def shortestFrom (x : Double) (first : Int) : Nat → Nat → Nat × Int
  | 0, n =>
    let g := first - n + 1
    (floorAt x.magnitude unitsOfOne g, g)
  | fuel + 1, n =>
    let g := first - n + 1
    let d := floorAt x.magnitude unitsOfOne g
    let i := x.interval
    match i.holds d g, i.holds (d + 1) g with
    | true, false => (d, g)
    | false, true => (d + 1, g)
    | true, true =>
      match overHalf x.magnitude unitsOfOne d g with
      | .lt => (d, g)
      | .gt => (d + 1, g)
      | .eq => if d % 2 = 0 then (d, g) else (d + 1, g)
    | false, false => shortestFrom x first fuel (n + 1)

/-- The digits of a magnitude in the fewest places that read back, and the place of
the last one. Seventeen digits always suffice. -/
def shortest (x : Double) : Nat × Int :=
  if x.mantissa = 0 then (0, 0)
  else shortestFrom x (firstPlace x.magnitude unitsOfOne) 17 1

/-- The first `count` digits of a magnitude, a half rounded up, and the place of the
last one. -/
def significant (count : Nat) (x : Double) : Nat × Int :=
  if x.mantissa = 0 then (0, 0) else
  let g := firstPlace x.magnitude unitsOfOne - count + 1
  let d := floorAt x.magnitude unitsOfOne g
  if overHalf x.magnitude unitsOfOne d g = .lt then (d, g) else (d + 1, g)

end Double

/-! ## Layout -/

/-- How digits become text. -/
structure DecimalLayout where
  /-- The least place of a first digit that is written positionally. -/
  leastPlace : Int
  /-- The greatest such place. -/
  greatestPlace : Int
  /-- The least count of digits of an exponent. -/
  exponentDigits : Nat
  /-- Whether a single digit before an exponent still gets a fraction. -/
  fractionKept : Bool

namespace DecimalLayout

/-- Drop zeros from the end of a list of digits, but keep one digit. -/
def dropZeros (ds : List Char) : List Char :=
  match (ds.reverse.dropWhile (· = '0')).reverse with
  | [] => ['0']
  | ds => ds

/-- The text of `0.d₁d₂… · 10^(place + 1)`. A positional text always has a fraction. -/
def layOut (l : DecimalLayout) (ds : List Char) (place : Int) : List Char :=
  if place < l.leastPlace ∨ l.greatestPlace < place then
    let mantissa := match ds with
      | [d] => if l.fractionKept then [d, '.', '0'] else [d]
      | d :: rest => d :: '.' :: rest
      | [] => []
    let e := Nat.toDigits 10 place.natAbs
    mantissa ++ 'e' :: (if place < 0 then '-' else '+')
      :: (List.replicate (l.exponentDigits - e.length) '0' ++ e)
  else if place < 0 then
    '0' :: '.' :: (List.replicate (-place - 1).toNat '0' ++ ds)
  else
    let whole := place.toNat + 1
    if ds.length ≤ whole then ds ++ List.replicate (whole - ds.length) '0' ++ ['.', '0']
    else ds.take whole ++ '.' :: ds.drop whole

/-- The text of a magnitude given as digits and the place of the last one. -/
def magnitudeText (l : DecimalLayout) (digits : Nat) (lastPlace : Int) : List Char :=
  let ds := Nat.toDigits 10 digits
  l.layOut (dropZeros ds) (lastPlace + ds.length - 1)

end DecimalLayout

/-! ## Numbers that a text can name -/

/-- A finite number, an infinity, or no number. -/
inductive Extended where
  | finite (x : Double)
  | infinite (negative : Bool)
  | notANumber
  deriving DecidableEq, Repr

namespace Extended

/-- The order of two numbers; the non-number has no place in it. -/
def order? : Extended → Extended → Option Ordering
  | notANumber, _ => none
  | _, notANumber => none
  | finite x, finite y => some (x.order y)
  | finite _, infinite negative => some (if negative then .gt else .lt)
  | infinite negative, finite _ => some (if negative then .lt else .gt)
  | infinite a, infinite b => some (compare (!a) (!b))

/-- The value of a run of digits. -/
def digitsValue (ds : List Char) : Nat :=
  ds.foldl (fun n c => n * 10 + (c.toNat - '0'.toNat)) 0

/-- An exponent: an optional sign and at least one digit, and nothing after it. -/
def exponent? (cs : List Char) : Option Int :=
  let (negative, ds) := match cs with
    | '-' :: r => (true, r)
    | '+' :: r => (false, r)
    | r => (false, r)
  if ds.isEmpty || !ds.all Char.isDigit then none
  else some (if negative then -(digitsValue ds : Int) else digitsValue ds)

/-- A number without its sign: digits with an optional point among or around them,
then an optional exponent. -/
def unsigned? (negative : Bool) (cs : List Char) : Option Extended :=
  let whole := cs.takeWhile Char.isDigit
  let rest := cs.dropWhile Char.isDigit
  let (fraction, rest) := match rest with
    | '.' :: r => (r.takeWhile Char.isDigit, r.dropWhile Char.isDigit)
    | r => ([], r)
  if whole.isEmpty && fraction.isEmpty then none
  else
    let value (e : Int) : Extended :=
      match Double.ofDecimal? negative (digitsValue (whole ++ fraction)) (e - fraction.length) with
      | some x => finite x
      | none => infinite negative
    match rest with
    | [] => some (value 0)
    | c :: r => if c = 'e' || c = 'E' then (exponent? r).map value else none

/-- Read a number: an optional sign, then digits or one of the names `inf`,
`infinity` and `nan` in any case. -/
def ofText? (s : String) : Option Extended :=
  let (negative, cs) := match s.toList with
    | '-' :: r => (true, r)
    | '+' :: r => (false, r)
    | r => (false, r)
  let name := String.ofList (cs.map Char.toLower)
  if name = "inf" || name = "infinity" then some (infinite negative)
  else if name = "nan" then some notANumber
  else unsigned? negative cs

end Extended

end Replica
