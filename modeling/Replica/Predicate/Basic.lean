/-
Replica.Predicate.Basic — filters over record fields.

A predicate compares single fields with literals and combines comparisons by "all
of", "any of" and "not". Predicates are put together with `both`, `either` and
`negate`, which keep them flat: `all` is neutral in a conjunction and absorbs a
disjunction, lists of the same kind are joined, and a double negation cancels.
-/
import Replica.Json.Basic

namespace Replica

/-- How a field is compared with a literal. -/
inductive Operator where
  | eq
  | ne
  | gt
  | ge
  | lt
  | le
  deriving DecidableEq, Repr

namespace Operator

/-- The key of the operator in a backend filter. -/
def key : Operator → String
  | eq => "eq"
  | ne => "ne"
  | gt => "gt"
  | ge => "ge"
  | lt => "lt"
  | le => "le"

/-- The symbol of the operator in SQL. -/
def symbol : Operator → String
  | eq => "="
  | ne => "!="
  | gt => ">"
  | ge => ">="
  | lt => "<"
  | le => "<="

/-- The orders of field and literal that the operator accepts. -/
def accepts : Operator → Ordering → Bool
  | eq, o => o = .eq
  | ne, o => o ≠ .eq
  | gt, o => o = .gt
  | ge, o => o ≠ .lt
  | lt, o => o = .lt
  | le, o => o ≠ .gt

end Operator

/-- A filter over record fields. -/
inductive Predicate where
  /-- Every record. -/
  | all
  /-- One field compared with a literal. -/
  | compare (field : String) (op : Operator) (value : Json)
  /-- The records that all parts select. -/
  | allOf (parts : List Predicate)
  /-- The records that some part selects. -/
  | anyOf (parts : List Predicate)
  /-- The records that the part does not select. -/
  | complement (part : Predicate)
  deriving Inhabited

namespace Predicate

/-! ## Building -/

/-- Whether the predicate is the one of every record. -/
def isAll : Predicate → Bool
  | all => true
  | _ => false

/-- A predicate as a list of conjuncts. -/
def conjuncts : Predicate → List Predicate
  | all => []
  | allOf parts => parts
  | p => [p]

/-- A predicate as a list of disjuncts. -/
def disjuncts : Predicate → List Predicate
  | anyOf parts => parts
  | p => [p]

/-- The records that two predicates both select. -/
def both (p q : Predicate) : Predicate :=
  match p.conjuncts ++ q.conjuncts with
  | [] => all
  | parts => allOf parts

/-- The records that one of two predicates selects. -/
def either (p q : Predicate) : Predicate :=
  if p.isAll || q.isAll then all else anyOf (p.disjuncts ++ q.disjuncts)

/-- The records that a predicate does not select. -/
def negate : Predicate → Predicate
  | complement part => part
  | p => complement p

/-! ## Fields -/

mutual

/-- Add the fields of a predicate that are not listed yet. -/
def addFields (seen : List String) : Predicate → List String
  | all => seen
  | compare field _ _ => if seen.contains field then seen else seen ++ [field]
  | allOf parts => addFieldsOf seen parts
  | anyOf parts => addFieldsOf seen parts
  | complement part => addFields seen part

/-- Add the fields of a list of predicates. -/
def addFieldsOf (seen : List String) : List Predicate → List String
  | [] => seen
  | p :: ps => addFieldsOf (addFields seen p) ps

end

/-- The compared fields, each once, by first occurrence. -/
def fields (p : Predicate) : List String := addFields [] p

end Predicate

end Replica
