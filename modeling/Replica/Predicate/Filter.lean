/-
Replica.Predicate.Filter — predicates as the filter argument of the backend.

A comparison is the object of its field with the object of its operator; the
connectives are objects with the key `and`, `or` or `not`. The predicate of every
record is `null`: it is left out of lists, and its complement is written with an
empty object.
-/
import Replica.Predicate.Basic

namespace Replica.Predicate

mutual

def toFilter : Predicate → Json
  | all => .null
  | compare field op value => .obj [(field, .obj [(op.key, value)])]
  | allOf parts => .obj [("and", .arr (filtersOf parts))]
  | anyOf parts => .obj [("or", .arr (filtersOf parts))]
  | complement part =>
    match toFilter part with
    | .null => .obj [("not", .obj [])]
    | filter => .obj [("not", filter)]

/-- The filters of a list, without those of every record. -/
def filtersOf : List Predicate → List Json
  | [] => []
  | p :: ps =>
    match toFilter p with
    | .null => filtersOf ps
    | filter => filter :: filtersOf ps

end

end Replica.Predicate
