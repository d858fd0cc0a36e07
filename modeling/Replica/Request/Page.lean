/-
Replica.Request.Page — the pages in a response.

A response carries, under `data`, one list result for each query, and a list of errors
beside it. Each query's result is read on its own: a result that is `null`, or no list
result, or that holds an item which is no record, counts as an empty page, and touches
no other page. A response without a `data` object is incomplete and has no pages.
-/
import Replica.Json.Printer
import Replica.Json.Shape
import Replica.Record.Item
import Replica.Request.Query

namespace Replica

/-- An error that the backend reports. -/
structure BackendError where
  type : Option String
  message : String
  deriving DecidableEq

/-- One model's part of a response. -/
structure Page where
  model : String
  items : List Item
  nextToken : Option String
  startedAt : Option Timestamp
  deriving DecidableEq

/-- What a response holds. -/
structure Response where
  /-- The pages in the order of the queries. -/
  pages : List Page
  errors : List BackendError
  /-- Whether there was a `data` object. -/
  complete : Bool
  deriving DecidableEq

namespace BackendError

def shape : Json.Shape BackendError := do
  let type ← Json.Shape.defaulted "errorType" none (Json.nullable? Json.asText?)
  let message ← Json.Shape.defaulted "message" "" Json.asText?
  return ⟨type, message⟩

def decode? : Json → Option BackendError := Json.Shape.read shape

/-- Read an error; one that cannot be read has its own text as the message. -/
def ofJson (j : Json) : BackendError := (decode? j).getD ⟨none, j.text⟩

/-- The error in one line. -/
def line (e : BackendError) : String := "[" ++ e.type.getD "Unknown" ++ "]: " ++ e.message

end BackendError

namespace Page

def empty (model : String) : Page := ⟨model, [], none, none⟩

/-- A list result before its items are read. -/
structure ListResult where
  items : List Json
  nextToken : Option String
  startedAt : Option Nat

def ListResult.shape : Json.Shape ListResult := do
  let items ← Json.Shape.defaulted "items" [] Json.asArray?
  let nextToken ← Json.Shape.optional "nextToken" (Json.nullable? Json.asText?)
  let startedAt ← Json.Shape.optional "startedAt" (Json.nullable? Json.asUnsigned64?)
  return ⟨items, nextToken, startedAt⟩

def ListResult.decode? : Json → Option ListResult := Json.Shape.read shape

/-- Read every item, or none if one of them is no record. -/
def readItems (model : String) : List Json → Option (List Item)
  | [] => some []
  | j :: rest =>
    match Item.ofWire model j with
    | .error _ => none
    | .ok item => (readItems model rest).map (item :: ·)

/-- Read one model's result; `null` items are left out and an empty token is none. -/
def ofJson (model : String) (j : Json) : Page :=
  match ListResult.decode? j with
  | none => empty model
  | some list =>
    match readItems model (list.items.filter (fun i => !i.isNull)) with
    | none => empty model
    | some items =>
      ⟨model, items, list.nextToken.filter (· ≠ ""), list.startedAt.map Timestamp.mk⟩

end Page

namespace Response

/-- The errors that a response reports. -/
def errorsOf (j : Json) : List BackendError :=
  (((j.get? "errors").bind Json.asArray?).getD []).map BackendError.ofJson

/-- The page of one query; none if the response does not mention it. -/
def pageOf? (data : Dict Json) (c : ChildQuery) : Option Page :=
  (data.get? c.resultKey).map (Page.ofJson c.model)

/-- Split a response by the queries that it answers. -/
def split (j : Json) (children : List ChildQuery) : Response :=
  match (j.get? "data").bind Json.asObject? with
  | none => ⟨[], errorsOf j, false⟩
  | some data => ⟨children.filterMap (pageOf? data), errorsOf j, true⟩

def hasMore (r : Response) : Bool := r.pages.any (·.nextToken.isSome)

/-- All errors in one line. -/
def errorSummary (r : Response) : String :=
  String.intercalate "; " (r.errors.map BackendError.line)

end Response

end Replica
