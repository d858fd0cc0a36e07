/-
Replica.Request.Query — list queries, one for each model, and their union.

A model's query asks for one page of its records. Its text refers to its variables by
their plain names. The union of several queries is one operation: variables are
renamed per model, shared ones are declared once, declarations are listed by name, and
each query keeps a line of its own.
-/
import Replica.Predicate.Filter
import Replica.Request.Error
import Replica.Request.Variable

namespace Replica

/-- A declared variable. -/
structure VariableDecl where
  name : String
  type : String
  deriving DecidableEq

/-- One query of a request: its model, and the key of its result in the response. -/
structure ChildQuery where
  model : String
  resultKey : String
  deriving DecidableEq

/-- One model's query for a page of its records. -/
structure ModelQuery where
  model : String
  resultKey : String
  body : String
  declarations : List VariableDecl
  values : Dict Json
  predicate : Predicate

/-- One request: the document, its variables, and the queries in it. -/
structure Request where
  document : String
  values : Dict Json
  children : List ChildQuery
  deriving DecidableEq

/-- The key of a model's result. -/
def resultKeyFor (model : String) : String := "list" ++ model

/-- The declarations of a header. -/
def headerText (declarations : List (String × String)) : String :=
  String.intercalate ", " (declarations.map fun d => "$" ++ d.1 ++ ": " ++ d.2)

namespace ModelQuery

/-! ## Queries of one model -/

/-- The keys that every item is asked for beside its fields. -/
def metadataKeys : List String := [FieldName.version, FieldName.deleted, FieldName.lastChangedAt]

/-- The fields asked for: the declared ones, then the metadata keys not among them. -/
def selection (m : ModelSchema) : List String :=
  metadataKeys.foldl (fun names k => if names.contains k then names else names ++ [k])
    m.fieldNames

/-- The text of a model's query. -/
def bodyFor (m : ModelSchema) : String :=
  resultKeyFor m.name ++ ": list" ++ m.plural
    ++ "(filter: $filter, limit: $limit, nextToken: $nextToken) \x7b items \x7b "
    ++ String.intercalate " " (selection m) ++ " \x7d nextToken startedAt \x7d"

/-- The query for a page of a model. -/
def ofSchema (m : ModelSchema) (p : Predicate) (limit : Nat) (token : Option String) :
    ModelQuery where
  model := m.name
  resultKey := resultKeyFor m.name
  body := bodyFor m
  declarations := [⟨"filter", "Model" ++ m.name ++ "FilterInput"⟩, ⟨"limit", "Int"⟩,
    ⟨"nextToken", "String"⟩]
  values := Dict.ofEntries [("filter", p.toFilter), ("limit", .int limit),
    ("nextToken", .ofText? token)]
  predicate := p

/-- The query for a page of a registered model. -/
def forModel (r : Registry) (model : String) (p : Predicate) (limit : Nat)
    (token : Option String) : Except SchemaError ModelQuery :=
  (r.get model).map fun m => ofSchema m p limit token

/-- The page token of a query. -/
def nextToken? (q : ModelQuery) : Option String :=
  (q.values.get? "nextToken").bind Json.asText?

/-- The same query for the page with a token. -/
def continuation (q : ModelQuery) (token : String) : ModelQuery :=
  { q with values := q.values.insert "nextToken" (.str token) }

def document (q : ModelQuery) : String :=
  "query Sync" ++ q.model ++ "(" ++ headerText (q.declarations.map fun d => (d.name, d.type))
    ++ ") \x7b\n  " ++ q.body ++ "\n\x7d\n"

end ModelQuery

namespace Request

/-! ## Union of queries -/

/-- A union under construction. -/
structure Draft where
  declared : Dict String
  values : Dict Json
  bodies : List String
  children : List ChildQuery

/-- Declare a query's variables and rename them in its text. -/
def declare (model : String) : List VariableDecl → Dict String → String →
    Except SyncError (Dict String × String)
  | [], declared, body => .ok (declared, body)
  | d :: rest, declared, body =>
    let name := Variable.namespaced d.name model
    let renamed := if name = d.name then body else Variable.rename body d.name name
    match declared.get? name with
    | some type =>
      if type = d.type then declare model rest declared renamed
      else .error (.protocol (.typeConflict name type d.type))
    | none => declare model rest (declared.insert name d.type) renamed

/-- Add a query's values; of a shared variable the first value stays. -/
def addValues (model : String) (added : List (String × Json)) (values : Dict Json) :
    Dict Json :=
  added.foldl (fun all e =>
    let name := Variable.namespaced e.1 model
    if Variable.isShared e.1 && all.contains name then all else all.insert name e.2) values

/-- Add a query to a union. -/
def addQuery (draft : Draft) (q : ModelQuery) : Except SyncError Draft :=
  if draft.children.any (fun c => c.model = q.model) then
    .error (.protocol (.modelTwice q.model))
  else
    match declare q.model q.declarations draft.declared q.body with
    | .error e => .error e
    | .ok (declared, body) =>
      .ok {
        declared := declared
        values := addValues q.model q.values.entries draft.values
        bodies := draft.bodies ++ [body]
        children := draft.children ++ [⟨q.model, q.resultKey⟩] }

def addQueries (draft : Draft) : List ModelQuery → Except SyncError Draft
  | [] => .ok draft
  | q :: rest =>
    match addQuery draft q with
    | .ok draft => addQueries draft rest
    | .error e => .error e

def operationName : String := "ListAllModel"

/-- The document of a union. -/
def documentOf (declared : Dict String) (bodies : List String) : String :=
  "query " ++ operationName ++ "(" ++ headerText declared.entries ++ ") \x7b\n"
    ++ String.join (bodies.map fun body => "  " ++ body ++ "\n") ++ "\x7d\n"

def ofDraft (draft : Draft) : Request :=
  ⟨documentOf draft.declared draft.bodies, draft.values, draft.children⟩

/-- The union of queries: at least one, no two about one model, and no variable with two
types. -/
def union (queries : List ModelQuery) : Except SyncError Request :=
  if queries.isEmpty then .error .emptyRequest
  else (addQueries ⟨Dict.empty, Dict.empty, [], []⟩ queries).map ofDraft

def models (q : Request) : List String := q.children.map (·.model)

end Request

end Replica
