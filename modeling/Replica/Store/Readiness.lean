/-
Replica.Store.Readiness — a gate that settles once.

A gate is pending until it is opened or failed; after that nothing changes it.
-/
import Replica.Store.Error

namespace Replica

/-- The state of a gate. -/
inductive Readiness where
  | pending
  | ready
  | failed (reason : String)
  deriving DecidableEq, Repr

namespace Readiness

def settle (g next : Readiness) : Readiness :=
  match g with
  | pending => next
  | g => g

def markReady (g : Readiness) : Readiness := g.settle ready

def markFailed (g : Readiness) (reason : String) : Readiness := g.settle (failed reason)

/-- What a waiting caller gets; nothing while the gate is pending. -/
def outcome? : Readiness → Option (Except StoreError Unit)
  | pending => none
  | ready => some (.ok ())
  | failed reason => some (.error (.initialization reason))

/-- A settled gate stays as it is. -/
theorem settle_of_ne_pending {g : Readiness} (h : g ≠ pending) (next : Readiness) :
    g.settle next = g := by
  cases g with
  | pending => exact absurd rfl h
  | ready => rfl
  | failed reason => rfl

end Readiness

end Replica
