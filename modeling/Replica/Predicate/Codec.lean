/-
Replica.Predicate.Codec — the stored form of operators and predicates.
-/
import Replica.Json.Shape
import Replica.Predicate.Basic

namespace Replica

open Json

namespace Operator

def ofKey? : String → Option Operator
  | "eq" => some eq
  | "ne" => some ne
  | "gt" => some gt
  | "ge" => some ge
  | "lt" => some lt
  | "le" => some le
  | _ => none

def encode (op : Operator) : Json := .str op.key

def decode? : Json → Option Operator := plainCase? ofKey?

end Operator

namespace Predicate

mutual

def encode : Predicate → Json
  | all => .str "all"
  | compare field op value =>
    object [("compare", object [("field", .str field), ("op", op.encode), ("value", value)])]
  | allOf parts => object [("and", .arr (encodeList parts))]
  | anyOf parts => object [("or", .arr (encodeList parts))]
  | complement part => object [("not", encode part)]

def encodeList : List Predicate → List Json
  | [] => []
  | p :: ps => encode p :: encodeList ps

end

/-- The members of a comparison. -/
def comparison : Shape Predicate := do
  let field ← Shape.required "field" asText?
  let op ← Shape.required "op" Operator.decode?
  let value ← Shape.required "value" some
  return compare field op value

mutual

def decode? : Json → Option Predicate
  | .str "all" => some all
  | .obj [("all", .null)] => some all
  | .obj [("compare", .obj entries)] => Shape.read comparison (.obj entries)
  | .obj [("and", .arr parts)] => (decodeList? parts).map allOf
  | .obj [("or", .arr parts)] => (decodeList? parts).map anyOf
  | .obj [("not", part)] => (decode? part).map complement
  | _ => none

def decodeList? : List Json → Option (List Predicate)
  | [] => some []
  | j :: js => do
    let p ← decode? j
    let ps ← decodeList? js
    return p :: ps

end

end Predicate

end Replica
