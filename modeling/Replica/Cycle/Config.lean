/-
Replica.Cycle.Config — how a replica is kept up to date.
-/
import Replica.Json.Shape
import Replica.Predicate.Codec
import Replica.Record.Codec

namespace Replica

/-- Which of two versions of a record stays. -/
inductive ConflictPolicy where
  /-- The one that arrived last. -/
  | arrivalOrder
  /-- The one that arrived last, unless its version is lower than the stored one. -/
  | versionChecked
  deriving DecidableEq, Repr

/-- The configuration of sync cycles. -/
structure SyncConfig where
  /-- The age from which a watermark no longer counts. -/
  expireInterval : Duration
  /-- The gray-release cohort; records at or below it are not fetched. -/
  grayRelease : Int
  /-- The locale tag of overlays. -/
  locale : Option String
  /-- How many records a page may have. -/
  pageLimit : Nat
  /-- How many requests a cycle may send. -/
  maxPages : Nat
  /-- What is fetched of a model at most. -/
  syncExpressions : Dict Predicate
  conflictPolicy : ConflictPolicy

namespace SyncConfig

def maxGrayRelease : Int := 16

/-- Thirty days, pages of a thousand records, a hundred requests. -/
def default : SyncConfig where
  expireInterval := ⟨30 * 24 * 60 * 60, 0⟩
  grayRelease := 0
  locale := none
  pageLimit := 1000
  maxPages := 100
  syncExpressions := Dict.empty
  conflictPolicy := .arrivalOrder

instance : Inhabited SyncConfig := ⟨default⟩

/-- The cohort cut to the range of cohorts. -/
def effectiveGrayRelease (c : SyncConfig) : Int := max 0 (min c.grayRelease maxGrayRelease)

def withLocale (c : SyncConfig) (tag : String) : SyncConfig := { c with locale := some tag }

def withGrayRelease (c : SyncConfig) (cohort : Int) : SyncConfig := { c with grayRelease := cohort }

/-- With a limit on what is fetched of a model. -/
def withSyncExpression (c : SyncConfig) (model : String) (p : Predicate) : SyncConfig :=
  { c with syncExpressions := c.syncExpressions.insert model p }

end SyncConfig

/-! ## Stored form -/

open Json

namespace ConflictPolicy

def key : ConflictPolicy → String
  | arrivalOrder => "arrival_order"
  | versionChecked => "version_checked"

def ofKey? : String → Option ConflictPolicy
  | "arrival_order" => some arrivalOrder
  | "version_checked" => some versionChecked
  | _ => none

def encode (p : ConflictPolicy) : Json := .str p.key

def decode? : Json → Option ConflictPolicy := plainCase? ofKey?

end ConflictPolicy

namespace SyncConfig

def encode (c : SyncConfig) : Json :=
  object [("expire_interval", c.expireInterval.toJson), ("gray_release", .int c.grayRelease),
    ("locale", .ofText? c.locale), ("page_limit", .int c.pageLimit), ("max_pages", .int c.maxPages),
    ("sync_expressions", .ofDict (c.syncExpressions.mapValues Predicate.encode)),
    ("conflict_policy", c.conflictPolicy.encode)]

def maxUnsigned32 : Nat := 4294967295

/-- The members of a configuration; each has a default. -/
def shape : Shape SyncConfig := do
  let expireInterval ←
    Shape.defaulted "expire_interval" default.expireInterval Duration.ofJson?
  let grayRelease ← Shape.defaulted "gray_release" default.grayRelease asSigned64?
  let locale ← Shape.defaulted "locale" default.locale (nullable? asText?)
  let pageLimit ← Shape.defaulted "page_limit" default.pageLimit (asNatUpTo? maxUnsigned32)
  let maxPages ← Shape.defaulted "max_pages" default.maxPages asUnsigned64?
  let syncExpressions ←
    Shape.defaulted "sync_expressions" default.syncExpressions (dictOf? Predicate.decode?)
  let conflictPolicy ←
    Shape.defaulted "conflict_policy" default.conflictPolicy ConflictPolicy.decode?
  return {
    expireInterval := expireInterval, grayRelease := grayRelease, locale := locale
    pageLimit := pageLimit, maxPages := maxPages, syncExpressions := syncExpressions
    conflictPolicy := conflictPolicy }

def decode? : Json → Option SyncConfig := Shape.read shape

end SyncConfig

end Replica
