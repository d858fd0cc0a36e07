/-
Replica.Request.Error — why a sync cycle, or a part of one, fails.
-/
import Replica.Store.Error

namespace Replica

/-- Why the backend was of no use. -/
inductive NetworkFault where
  /-- It answered with a status that is no success. -/
  | status (code : Nat) (phrase body : String)
  /-- It was not reached, or the connection broke. -/
  | unreachable
  /-- The transport says so. -/
  | reported (reason : String)
  deriving DecidableEq, Repr

namespace NetworkFault

def message : NetworkFault → String
  | status code phrase body => "HTTP " ++ toString code ++ " " ++ phrase ++ ": " ++ body
  | unreachable => "backend not reached"
  | reported reason => reason

end NetworkFault

/-- What is malformed in a request or a response. -/
inductive ProtocolFault where
  /-- Two queries of one request are about the same model. -/
  | modelTwice (model : String)
  /-- Two queries of one request declare a variable with different types. -/
  | typeConflict (name first second : String)
  /-- The response is no JSON text. -/
  | notJson
  /-- The transport says so. -/
  | reported (reason : String)
  deriving DecidableEq, Repr

namespace ProtocolFault

def message : ProtocolFault → String
  | modelTwice model => "model " ++ model ++ " appears twice in one request"
  | typeConflict name first second =>
    "variable $" ++ name ++ " declared as both " ++ first ++ " and " ++ second
  | notJson => "response is not JSON"
  | reported reason => reason

end ProtocolFault

/-- Why a sync cycle fails. -/
inductive SyncError where
  /-- The backend was not reached, or refused the request. -/
  | network (fault : NetworkFault)
  /-- A request or a response is malformed. -/
  | protocol (fault : ProtocolFault)
  /-- The store or the settings failed. -/
  | storage (error : StoreError)
  /-- A model is not registered. -/
  | schema (error : SchemaError)
  /-- There is nothing to ask for. -/
  | emptyRequest
  /-- The response has no data. -/
  | incompleteResponse (summary : String)
  /-- The fetched records could not be written. -/
  | mergeFailed (error : StoreError)
  /-- There are more pages than a cycle may fetch. -/
  | paginationLimit (pages : Nat)
  /-- The backend did not answer in time. -/
  | timeout
  deriving DecidableEq, Repr

namespace SyncError

def message : SyncError → String
  | network fault => "network error: " ++ fault.message
  | protocol fault => "protocol error: " ++ fault.message
  | storage error => "storage error: " ++ error.message
  | schema error => "schema error: " ++ error.message
  | emptyRequest => "no model queries to merge"
  | incompleteResponse summary => "incomplete response: " ++ summary
  | mergeFailed error => "merge failed: " ++ error.message
  | paginationLimit pages => "pagination exceeded " ++ toString pages ++ " pages"
  | timeout => "operation timed out"

end SyncError

end Replica
