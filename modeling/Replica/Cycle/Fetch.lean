/-
Replica.Cycle.Fetch — fetching every page of every model.

The first request asks for all models; each further request asks for those models
whose last page named a next one. A transport answers a request in view of everything
that was asked before in the cycle. The number of requests is bounded.
-/
import Replica.Cycle.Merge
import Replica.Cycle.Selection
import Replica.Request.Page

namespace Replica

/-- What the backend answers to the last request of a list; the others were sent before
it in the same cycle. -/
abbrev Transport := List Request → Except SyncError Json

/-- Everything fetched in a cycle. -/
structure Fetched where
  groups : List ModelGroup
  pages : Nat

/-- The end of a fetch, and every request that was sent. -/
structure FetchRun where
  sent : List Request
  result : Except SyncError Fetched

namespace Fetch

/-- Add the items of a page to the first group of its model. -/
def addPage : List ModelGroup → Page → List ModelGroup
  | [], _ => []
  | g :: rest, page =>
    if g.model = page.model then { g with items := g.items ++ page.items } :: rest
    else g :: addPage rest page

/-- The query for the page after this one, if there is one. -/
def nextQuery? (pending : List ModelQuery) (page : Page) : Option ModelQuery :=
  match page.nextToken with
  | none => none
  | some token => (pending.find? (fun q => q.model = page.model)).map (·.continuation token)

/-- Send requests until no query is pending or the number of requests is used up. -/
def loop (transport : Transport) (maxPages : Nat) :
    Nat → List ModelQuery → List ModelGroup → List Request → FetchRun
  | _, [], groups, sent => ⟨sent, .ok ⟨groups, sent.length⟩⟩
  | 0, _ :: _, _, sent => ⟨sent, .error (.paginationLimit maxPages)⟩
  | left + 1, q :: qs, groups, sent =>
    match Request.union (q :: qs) with
    | .error e => ⟨sent, .error e⟩
    | .ok request =>
      match transport (sent ++ [request]) with
      | .error e => ⟨sent ++ [request], .error e⟩
      | .ok raw =>
        let response := Response.split raw request.children
        if response.complete then
          loop transport maxPages left (response.pages.filterMap (nextQuery? (q :: qs)))
            (response.pages.foldl addPage groups) (sent ++ [request])
        else ⟨sent ++ [request], .error (.incompleteResponse response.errorSummary)⟩

/-- The first query of each model. -/
def firstQuery (r : Registry) (limit : Nat) (s : ModelSelection) : Except SchemaError ModelQuery :=
  ModelQuery.forModel r s.model s.predicate limit none

/-- Fetch all pages of all models. -/
def all (transport : Transport) (r : Registry) (config : SyncConfig) (inputs : SelectionInputs) :
    FetchRun :=
  let selections := Selection.every r config.syncExpressions inputs
  match selections.mapM (firstQuery r config.pageLimit) with
  | .error e => ⟨[], .error (.schema e)⟩
  | .ok queries =>
    if queries.isEmpty then ⟨[], .error .emptyRequest⟩
    else loop transport config.maxPages config.maxPages queries
      (selections.map fun s => ⟨s.model, []⟩) []

end Fetch

end Replica
