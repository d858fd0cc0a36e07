/-
Replica.Time.DateTime — timestamps as ISO 8601 text.

`Timestamp.text` writes Coordinated Universal Time with three fraction digits and `Z`;
years of more than four digits get a plus sign, and timestamps past the last
representable day are all written as its end. `Timestamp.parse` reads a date, a time
of day with an optional fraction, and an offset; the first fault met from the left is
the one reported, except that an offset of a day or more is only noticed at the end.
Second 60 is a leap second of any minute.
-/
import Replica.Time.Calendar
import Replica.Time.Timestamp

namespace Replica

/-! ## Writing -/

namespace Timestamp

/-- A number with leading zeros up to a width. -/
def padded (width n : Nat) : List Char :=
  let ds := Nat.toDigits 10 n
  List.replicate (width - ds.length) '0' ++ ds

/-- The last millisecond that has a text of its own. -/
def lastWritten : Nat := 8210266876799999

/-- The year: four digits, or a plus sign and all its digits. -/
def yearText (year : Nat) : List Char :=
  if year ≤ 9999 then padded 4 year else '+' :: Nat.toDigits 10 year

/-- Date, time of day and fraction. -/
def localText (millis : Nat) : List Char :=
  let date := Date.ofDay (millis / 86400000)
  let rest := millis % 86400000
  yearText date.year ++ '-' :: padded 2 date.month ++ '-' :: padded 2 date.day
    ++ 'T' :: padded 2 (rest / 3600000) ++ ':' :: padded 2 (rest / 60000 % 60)
    ++ ':' :: padded 2 (rest / 1000 % 60) ++ '.' :: padded 3 (rest % 1000)

/-- The ISO 8601 text in Coordinated Universal Time. -/
def text (t : Timestamp) : String :=
  String.ofList (localText (min t.millis lastWritten) ++ ['Z'])

end Timestamp

/-! ## Reading -/

/-- Why a text is not a date and time. -/
inductive DateTimeFault where
  | tooShort
  | badCharacter
  | outOfRange
  | trailing
  | beforeEpoch
  deriving DecidableEq, Repr

namespace DateTimeFault

def message : DateTimeFault → String
  | tooShort => "premature end of input"
  | badCharacter => "input contains invalid characters"
  | outOfRange => "input is out of range"
  | trailing => "trailing input"
  | beforeEpoch => "before the Unix epoch"

end DateTimeFault

namespace DateTime

/-- The size of a text in UTF-8 bytes. -/
def byteSize : List Char → Nat
  | [] => 0
  | c :: cs => c.utf8Size + byteSize cs

/-- Read a number of exactly `count` digits. -/
def digits : Nat → Nat → List Char → Except DateTimeFault (Nat × List Char)
  | 0, value, cs => .ok (value, cs)
  | count + 1, value, c :: cs =>
    match Text.digitValue? c with
    | some d => digits count (value * 10 + d) cs
    | none => .error .badCharacter
  | _ + 1, _, [] => .error .badCharacter

/-- Read one character of a set. -/
def mark (allowed : List Char) : List Char → Except DateTimeFault (List Char)
  | c :: cs => if allowed.contains c then .ok cs else .error .badCharacter
  | [] => .error .badCharacter

/-- Read `yyyy-mm-dd`; the day has to exist. -/
def date (cs : List Char) : Except DateTimeFault (Date × List Char) := do
  let (year, cs) ← digits 4 0 cs
  let cs ← mark ['-'] cs
  let (month, cs) ← digits 2 0 cs
  let cs ← mark ['-'] cs
  let (day, cs) ← digits 2 0 cs
  let date : Date := ⟨year, month, day⟩
  if date.isValid then return (date, cs) else throw .outOfRange

/-- The nanoseconds of fraction digits: the first nine count, and missing ones are zero. -/
def fractionNanos (ds : List Char) : Nat :=
  ((ds ++ List.replicate 9 '0').take 9).foldl (fun n c => n * 10 + (c.toNat - '0'.toNat)) 0

/-- Read an optional fraction of a second. -/
def fraction : List Char → Except DateTimeFault (Nat × List Char)
  | '.' :: cs =>
    match cs with
    | [] => .error .tooShort
    | c :: _ =>
      if c.isDigit then
        .ok (fractionNanos (cs.takeWhile Char.isDigit), cs.dropWhile Char.isDigit)
      else .error .badCharacter
  | cs => .ok (0, cs)

/-- Read `hh:mm:ss` with an optional fraction; the result is in milliseconds of the
day, fractions of a millisecond dropped. -/
def timeOfDay (cs : List Char) : Except DateTimeFault (Nat × List Char) := do
  let (hour, cs) ← digits 2 0 cs
  let cs ← mark [':'] cs
  let (minute, cs) ← digits 2 0 cs
  let cs ← mark [':'] cs
  let (second, cs) ← digits 2 0 cs
  let (nanos, cs) ← fraction cs
  if 23 < hour ∨ 59 < minute ∨ 60 < second then throw .outOfRange
  return ((hour * 3600 + minute * 60 + second) * 1000 + nanos / 1000000, cs)

/-- Read two digits of an offset's hours. -/
def offsetHours (cs : List Char) : Except DateTimeFault (Nat × List Char) :=
  if byteSize cs < 2 then .error .tooShort else digits 2 0 cs

/-- Read two digits of an offset's minutes; a first digit from 6 on is out of range. -/
def offsetMinutes (cs : List Char) : Except DateTimeFault (Nat × List Char) :=
  if byteSize cs < 2 then .error .tooShort
  else
    match digits 2 0 cs with
    | .ok (m, rest) => if 59 < m then .error .outOfRange else .ok (m, rest)
    | .error e => .error e

/-- Read an offset: `Z`, or a sign, hours, a colon and minutes. The result is in
minutes. -/
def offset : List Char → Except DateTimeFault (Int × List Char)
  | [] => .error .tooShort
  | c :: cs => do
    if c = 'Z' ∨ c = 'z' then return (0, cs)
    let negative ←
      if c = '+' then pure false
      else if c = '-' ∨ c = '\u2212' then pure true
      else throw .badCharacter
    let (hours, cs) ← offsetHours cs
    let cs ← match cs with
      | [] => throw .tooShort
      | ':' :: cs => pure cs
      | _ => throw .badCharacter
    let (minutes, cs) ← offsetMinutes cs
    let total : Int := hours * 60 + minutes
    return (if negative then -total else total, cs)

/-- The milliseconds since the start of 1970 that a text names. -/
def millis (cs : List Char) : Except DateTimeFault Int := do
  if byteSize cs < 19 then throw .tooShort
  let (date, cs) ← date cs
  let cs ← mark ['T', 't', ' '] cs
  let (time, cs) ← timeOfDay cs
  let (minutes, cs) ← offset cs
  if !cs.isEmpty then throw .trailing
  if 24 * 60 ≤ minutes.natAbs then throw .outOfRange
  return date.toDay * 86400000 + time - minutes * 60000

end DateTime

namespace Timestamp

/-- Read an ISO 8601 text; times before 1970 have no timestamp. -/
def parse (s : String) : Except DateTimeFault Timestamp := do
  let ms ← DateTime.millis s.toList
  if ms < 0 then throw .beforeEpoch
  return ⟨ms.toNat⟩

def faultMessage (s : String) (fault : DateTimeFault) : String :=
  "invalid timestamp: " ++ s ++ ": " ++ fault.message

end Timestamp

end Replica
