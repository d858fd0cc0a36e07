/-
Replica.Request.Codec — the stored form of requests and reported errors.
-/
import Replica.Predicate.Codec
import Replica.Request.Page

namespace Replica

open Json

namespace VariableDecl

def encode (d : VariableDecl) : Json := object [("name", .str d.name), ("graphql_type", .str d.type)]

def shape : Shape VariableDecl := do
  let name ← Shape.required "name" asText?
  let type ← Shape.required "graphql_type" asText?
  return ⟨name, type⟩

def decode? : Json → Option VariableDecl := Shape.read shape

end VariableDecl

namespace ChildQuery

def encode (c : ChildQuery) : Json := object [("model", .str c.model), ("alias", .str c.resultKey)]

def shape : Shape ChildQuery := do
  let model ← Shape.required "model" asText?
  let resultKey ← Shape.required "alias" asText?
  return ⟨model, resultKey⟩

def decode? : Json → Option ChildQuery := Shape.read shape

end ChildQuery

namespace ModelQuery

def encode (q : ModelQuery) : Json :=
  object [("model", .str q.model), ("alias", .str q.resultKey), ("body", .str q.body),
    ("declarations", .arr (q.declarations.map VariableDecl.encode)),
    ("variables", .ofDict q.values), ("predicate", q.predicate.encode)]

def shape : Shape ModelQuery := do
  let model ← Shape.required "model" asText?
  let resultKey ← Shape.required "alias" asText?
  let body ← Shape.required "body" asText?
  let declarations ← Shape.required "declarations" (listOf? VariableDecl.decode?)
  let values ← Shape.required "variables" asObject?
  let predicate ← Shape.required "predicate" Predicate.decode?
  return ⟨model, resultKey, body, declarations, values, predicate⟩

def decode? : Json → Option ModelQuery := Shape.read shape

end ModelQuery

namespace Request

def encode (q : Request) : Json :=
  object [("document", .str q.document), ("variables", .ofDict q.values),
    ("children", .arr (q.children.map ChildQuery.encode))]

def shape : Shape Request := do
  let document ← Shape.required "document" asText?
  let values ← Shape.required "variables" asObject?
  let children ← Shape.required "children" (listOf? ChildQuery.decode?)
  return ⟨document, values, children⟩

def decode? : Json → Option Request := Shape.read shape

end Request

namespace BackendError

def encode (e : BackendError) : Json :=
  object [("errorType", .ofText? e.type), ("message", .str e.message)]

end BackendError

end Replica
