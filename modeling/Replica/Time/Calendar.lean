/-
Replica.Time.Calendar — the Gregorian calendar over a count of days.

Day 0 is the first of January 1970. Years are counted from March on, so that the leap
day is the last day of its year, and in cycles of 400 years, which have 146097 days.
-/

namespace Replica

/-- A day of the Gregorian calendar. -/
structure Date where
  year : Nat
  month : Nat
  day : Nat
  deriving DecidableEq, Repr

namespace Date

def isLeap (year : Nat) : Bool := year % 4 = 0 && (year % 100 ≠ 0 || year % 400 = 0)

def monthLength (year month : Nat) : Nat :=
  match month with
  | 1 | 3 | 5 | 7 | 8 | 10 | 12 => 31
  | 4 | 6 | 9 | 11 => 30
  | 2 => if isLeap year then 29 else 28
  | _ => 0

/-- Whether the calendar has the day. -/
def isValid (d : Date) : Bool := 1 ≤ d.day && d.day ≤ monthLength d.year d.month

/-- Days from the first of March of year 0 to the start of 1970. -/
def epochShift : Nat := 719468

/-- Days of a cycle of 400 years. -/
def cycleDays : Nat := 146097

/-- The date of a count of days since the start of 1970. -/
def ofDay (n : Nat) : Date :=
  let z := n + epochShift
  let cycle := z / cycleDays
  let dayOfCycle := z % cycleDays
  let yearOfCycle := (dayOfCycle - dayOfCycle / 1460 + dayOfCycle / 36524 - dayOfCycle / 146096) / 365
  let dayOfYear := dayOfCycle - (365 * yearOfCycle + yearOfCycle / 4 - yearOfCycle / 100)
  let marchMonth := (5 * dayOfYear + 2) / 153
  let day := dayOfYear - (153 * marchMonth + 2) / 5 + 1
  let month := if marchMonth < 10 then marchMonth + 3 else marchMonth - 9
  let year := yearOfCycle + cycle * 400
  ⟨if month ≤ 2 then year + 1 else year, month, day⟩

/-- The count of days from the start of 1970 to a date. -/
def toDay (d : Date) : Int :=
  let year := if d.month ≤ 2 then d.year + 399 else d.year + 400
  let cycle := year / 400
  let yearOfCycle := year % 400
  let marchMonth := if d.month ≤ 2 then d.month + 9 else d.month - 3
  let dayOfYear := (153 * marchMonth + 2) / 5 + d.day - 1
  let dayOfCycle := yearOfCycle * 365 + yearOfCycle / 4 - yearOfCycle / 100 + dayOfYear
  (cycle * cycleDays + dayOfCycle : Nat) - ((epochShift + cycleDays : Nat) : Int)

end Date

end Replica
