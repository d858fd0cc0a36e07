/-
Replica.Json.Parser — reading the text of a JSON value.

The grammar is JSON's own: no leading zeros, no lone surrogates, no control
characters in strings, nothing but blanks after the value. Four rules are added.
Arrays and objects nest at most 127 deep. A literal beyond the binary64 range is
refused. Of entries with one key the last counts. A literal that is no integer is read
step by step, with at most 64 bits of its digits, so it may miss the nearest number.

The scanners work on lists of characters and return what they read with what is left;
the value reader has one unit of fuel for each character, which no text can use up.
-/
import Replica.Json.Basic
import Replica.Number.Decimal

namespace Replica.Json.Parser

/-- Blanks between tokens. -/
def isGap (c : Char) : Bool := c = ' ' || c = '\n' || c = '\t' || c = '\r'

/-- Drop the blanks at the front. -/
def skipGap (cs : List Char) : List Char := cs.dropWhile isGap

/-! ## Strings -/

def hexValue? (c : Char) : Option Nat :=
  if '0' ≤ c && c ≤ '9' then some (c.toNat - '0'.toNat)
  else if 'a' ≤ c && c ≤ 'f' then some (c.toNat - 'a'.toNat + 10)
  else if 'A' ≤ c && c ≤ 'F' then some (c.toNat - 'A'.toNat + 10)
  else none

/-- Four hexadecimal digits. -/
def unit? : List Char → Option (Nat × List Char)
  | a :: b :: c :: d :: rest => do
    let a ← hexValue? a
    let b ← hexValue? b
    let c ← hexValue? c
    let d ← hexValue? d
    return (((a * 16 + b) * 16 + c) * 16 + d, rest)
  | _ => none

/-- The character of an escape with one letter. -/
def letterEscape? : Char → Option Char
  | '"' => some '"'
  | '\\' => some '\\'
  | '/' => some '/'
  | 'b' => some '\x08'
  | 'f' => some '\x0c'
  | 'n' => some '\n'
  | 'r' => some '\r'
  | 't' => some '\t'
  | _ => none

/-- The character of an escape with a code, which takes a second escape when the
first unit is the first half of a pair. -/
def codeEscape? (cs : List Char) : Option (Char × List Char) := do
  let (u, rest) ← unit? cs
  if 0xd800 ≤ u && u ≤ 0xdbff then
    match rest with
    | '\\' :: 'u' :: rest =>
      let (v, rest) ← unit? rest
      if 0xdc00 ≤ v && v ≤ 0xdfff then
        return (Char.ofNat (0x10000 + (u - 0xd800) * 0x400 + (v - 0xdc00)), rest)
      else none
    | _ => none
  else if 0xdc00 ≤ u && u ≤ 0xdfff then none
  else return (Char.ofNat u, rest)

/-- The rest of a string after its opening quote; `acc` holds what was read, last
character first. -/
def string? (acc : List Char) : Nat → List Char → Option (String × List Char)
  | 0, _ => none
  | _, [] => none
  | fuel + 1, c :: rest =>
    if c = '"' then some (String.ofList acc.reverse, rest)
    else if c = '\\' then
      match rest with
      | 'u' :: rest =>
        match codeEscape? rest with
        | some (c, rest) => string? (c :: acc) fuel rest
        | none => none
      | e :: rest =>
        match letterEscape? e with
        | some c => string? (c :: acc) fuel rest
        | none => none
      | [] => none
    else if c.toNat < 32 then none
    else string? (c :: acc) fuel rest

/-! ## Numbers -/

/-- A whole part: a single zero, or digits that start with another one. -/
def whole? : List Char → Option ((List Char) × List Char)
  | '0' :: rest => some (['0'], rest)
  | cs =>
    let ds := cs.takeWhile Char.isDigit
    if ds.isEmpty then none else some (ds, cs.dropWhile Char.isDigit)

def fraction? : List Char → Option ((Option (List Char)) × List Char)
  | '.' :: cs =>
    let ds := cs.takeWhile Char.isDigit
    if ds.isEmpty then none else some (some ds, cs.dropWhile Char.isDigit)
  | cs => some (none, cs)

def exponent? : List Char → Option ((Option Int) × List Char)
  | c :: cs =>
    if c = 'e' || c = 'E' then
      let (negative, cs) := match cs with
        | '-' :: r => (true, r)
        | '+' :: r => (false, r)
        | r => (false, r)
      let ds := cs.takeWhile Char.isDigit
      if ds.isEmpty then none
      else
        let e := Extended.digitsValue ds
        some (some (if negative then -(e : Int) else e), cs.dropWhile Char.isDigit)
    else some (none, c :: cs)
  | [] => some (none, [])

/-- Take digits into a significand as long as it fits 64 bits: the significand, and the
digits that are left. -/
def takeDigits (significand : Nat) : List Char → Nat × List Char
  | [] => (significand, [])
  | c :: cs =>
    let next := significand * 10 + (c.toNat - '0'.toNat)
    if next ≤ Text.maxUnsigned64 then takeDigits next cs else (significand, c :: cs)

/-- The value of a whole literal that fits 64 bits: an integer inside the 64-bit ranges, a
binary64 number below them and for minus zero. -/
def wholeValue? (negative : Bool) (n : Nat) : Option Json :=
  if negative then
    if n ≠ 0 ∧ n ≤ Text.maxSigned64 + 1 then some (int (-(n : Int)))
    else (Double.ofRatio? true n 1).map real
  else some (int n)

/-- A number. Digits of the whole part that are left count by their places, those of the
fraction do not count. -/
def number? (cs : List Char) : Option (Json × List Char) := do
  let (negative, cs) := match cs with
    | '-' :: r => (true, r)
    | r => (false, r)
  let (ds, cs) ← whole? cs
  let (fraction, cs) ← fraction? cs
  let (exponent, cs) ← exponent? cs
  let (significand, left) := takeDigits 0 ds
  if left.isEmpty && fraction.isNone && exponent.isNone then
    let j ← wholeValue? negative significand
    return (j, cs)
  else
    let fs := fraction.getD []
    let (significand, ignored) := takeDigits significand fs
    let places : Int := left.length - (fs.length - ignored.length : Nat)
    let x ← Double.ofSteps? negative significand (exponent.getD 0 + places)
    return (real x, cs)

/-! ## Values -/

/-- Drop an expected word from the front. -/
def dropWord? : List Char → List Char → Option (List Char)
  | [], cs => some cs
  | w :: ws, c :: cs => if w = c then dropWord? ws cs else none
  | _ :: _, [] => none

mutual

/-- A value, with `depth` levels of nesting still allowed. -/
def value? : Nat → Nat → List Char → Option (Json × List Char)
  | 0, _, _ => none
  | fuel + 1, depth, cs =>
    match cs with
    | '"' :: rest => (string? [] (rest.length + 1) rest).map fun (s, rest) => (str s, rest)
    | '[' :: rest =>
      match depth with
      | 0 => none
      | depth + 1 =>
        match skipGap rest with
        | ']' :: rest => some (arr [], rest)
        | rest => items? fuel depth [] rest
    | '\x7b' :: rest =>
      match depth with
      | 0 => none
      | depth + 1 =>
        match skipGap rest with
        | '\x7d' :: rest => some (obj [], rest)
        | rest => entries? fuel depth Dict.empty rest
    | 'n' :: rest => (dropWord? ['u', 'l', 'l'] rest).map fun rest => (null, rest)
    | 't' :: rest => (dropWord? ['r', 'u', 'e'] rest).map fun rest => (bool true, rest)
    | 'f' :: rest => (dropWord? ['a', 'l', 's', 'e'] rest).map fun rest => (bool false, rest)
    | cs => number? cs

/-- The items of an array from the start of one on; `acc` holds those before it, last
one first. -/
def items? : Nat → Nat → List Json → List Char → Option (Json × List Char)
  | 0, _, _, _ => none
  | fuel + 1, depth, acc, cs =>
    match value? fuel depth cs with
    | none => none
    | some (item, rest) =>
      match skipGap rest with
      | ',' :: rest => items? fuel depth (item :: acc) (skipGap rest)
      | ']' :: rest => some (arr (item :: acc).reverse, rest)
      | _ => none

/-- The entries of an object from the start of a key on. -/
def entries? : Nat → Nat → Dict Json → List Char → Option (Json × List Char)
  | 0, _, _, _ => none
  | fuel + 1, depth, acc, cs =>
    match cs with
    | '"' :: rest =>
      match string? [] (rest.length + 1) rest with
      | none => none
      | some (key, rest) =>
        match skipGap rest with
        | ':' :: rest =>
          match value? fuel depth (skipGap rest) with
          | none => none
          | some (v, rest) =>
            match skipGap rest with
            | ',' :: rest => entries? fuel depth (acc.insert key v) (skipGap rest)
            | '\x7d' :: rest => some (ofDict (acc.insert key v), rest)
            | _ => none
        | _ => none
    | _ => none

end

/-- How deep arrays and objects may nest. -/
def maxDepth : Nat := 127

end Parser

/-- Read a text that holds one value. -/
def parse? (s : String) : Option Json :=
  let cs := s.toList
  match Parser.value? (2 * cs.length + 2) Parser.maxDepth (Parser.skipGap cs) with
  | some (j, rest) => if (Parser.skipGap rest).isEmpty then some j else none
  | none => none

end Replica.Json
