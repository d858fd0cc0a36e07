/-
Replica.Time.Timestamp — points in time and lengths of time.

A timestamp counts milliseconds since the start of 1970 and fits 64 bits; adding and
subtracting stop at the two ends of that range. Zero also stands for "never".
-/
import Replica.Text.Integer

namespace Replica

/-- A length of time; the nanoseconds are below one second. -/
structure Duration where
  seconds : Nat
  nanos : Nat
  deriving DecidableEq, Repr

namespace Duration

/-- A length of time in nanoseconds. -/
def totalNanos (d : Duration) : Nat := d.seconds * 1000000000 + d.nanos

/-- Whole milliseconds. -/
def millis (d : Duration) : Nat := d.seconds * 1000 + d.nanos / 1000000

/-- The length of a number of milliseconds. -/
def ofMillis (ms : Nat) : Duration := ⟨ms / 1000, ms % 1000 * 1000000⟩

end Duration

/-- Milliseconds since the start of 1970. -/
structure Timestamp where
  millis : Nat
  deriving DecidableEq, Repr

namespace Timestamp

/-- The start of 1970, which also means "never". -/
def zero : Timestamp := ⟨0⟩

instance : Inhabited Timestamp := ⟨zero⟩

/-- The last representable millisecond. -/
def maxMillis : Nat := Text.maxUnsigned64

/-- Whether a timestamp is the start of 1970. -/
def isZero (t : Timestamp) : Bool := t.millis = 0

/-- The time a number of seconds after the start. -/
def ofSeconds (s : Nat) : Timestamp := ⟨min (s * 1000) maxMillis⟩

/-- What a clock shows; a clock set before 1970 counts as showing its start. -/
def ofClock (ms : Int) : Timestamp := ⟨min ms.toNat maxMillis⟩

def latest (a b : Timestamp) : Timestamp := ⟨max a.millis b.millis⟩

def earliest (a b : Timestamp) : Timestamp := ⟨min a.millis b.millis⟩

/-- The time passed since an earlier point; nothing if it is a later one. -/
def since (t earlier : Timestamp) : Duration := .ofMillis (t.millis - earlier.millis)

/-- A time later by a length, at most the last one. -/
def add (t : Timestamp) (d : Duration) : Timestamp := ⟨min (t.millis + d.millis) maxMillis⟩

/-- A time earlier by a length, at least the start. -/
def sub (t : Timestamp) (d : Duration) : Timestamp := ⟨t.millis - d.millis⟩

def order (a b : Timestamp) : Ordering := compare a.millis b.millis

end Timestamp

end Replica
