/-
Replica.Predicate.Evaluate — which records a predicate selects.

Two texts compare by their code points and two truth values put `false` first; in
every other pair both sides have to stand for numbers, which a text does when it reads
as one between blanks. A field that is missing, or that cannot be compared with the
literal, fails every comparison except "not equal".
-/
import Replica.Predicate.Basic
import Replica.Record.Basic

namespace Replica

namespace Json

/-- The number a value stands for in a comparison. -/
def number? : Json → Option Extended
  | int n => some (.finite (.ofInt n))
  | real x => some (.finite x)
  | str s => Extended.ofText? (Text.trim s)
  | _ => none

/-- The order of two values, if they can be compared. -/
def order? : Json → Json → Option Ordering
  | str x, str y => some (Ord.compare x y)
  | bool x, bool y => some (Ord.compare x y)
  | a, b => do Extended.order? (← a.number?) (← b.number?)

end Json

namespace Predicate

/-- The value that a comparison sees: a field, or the identifier under `id`. -/
def operand? (r : Record) (field : String) : Option Json :=
  if field = FieldName.id then some (.str r.id) else r.get? field

/-- Whether one comparison selects a record. -/
def comparisonHolds (r : Record) (field : String) (op : Operator) (value : Json) : Bool :=
  match (operand? r field).bind (·.order? value) with
  | some o => op.accepts o
  | none => op = .ne

mutual

def evaluate (r : Record) : Predicate → Bool
  | all => true
  | compare field op value => comparisonHolds r field op value
  | allOf parts => evaluateAll r parts
  | anyOf parts => evaluateAny r parts
  | complement part => !evaluate r part

/-- Whether all predicates of a list select a record. -/
def evaluateAll (r : Record) : List Predicate → Bool
  | [] => true
  | p :: ps => evaluate r p && evaluateAll r ps

/-- Whether some predicate of a list selects a record. -/
def evaluateAny (r : Record) : List Predicate → Bool
  | [] => false
  | p :: ps => evaluate r p || evaluateAny r ps

end

/-- A conjunction asks every part. -/
theorem evaluateAll_eq (r : Record) (ps : List Predicate) :
    evaluateAll r ps = ps.all (evaluate r) := by
  induction ps with
  | nil => rfl
  | cons p ps ih => simp [evaluateAll, ih]

/-- Both of two predicates select a record exactly when their conjunction does. -/
theorem evaluate_both (r : Record) (p q : Predicate) :
    evaluate r (p.both q) = (evaluate r p && evaluate r q) := by
  have hc : ∀ x : Predicate, evaluate r x = x.conjuncts.all (evaluate r) := by
    intro x
    cases x <;> simp [conjuncts, evaluate, evaluateAll_eq]
  have hb : evaluate r (p.both q) = (p.conjuncts ++ q.conjuncts).all (evaluate r) := by
    unfold both
    split
    · rename_i h
      simp [h, evaluate]
    · simp [evaluate, evaluateAll_eq]
  rw [hb, List.all_append, ← hc p, ← hc q]

end Predicate

end Replica
