/-
Replica.Record.Codec — the stored form of times, records, items and watermarks.

Each type is written as an object of its members and read by its shape.
-/
import Replica.Json.Shape
import Replica.Record.Item

namespace Replica

open Json

/-! ## Times -/

namespace Duration

def toJson (d : Duration) : Json :=
  object [("secs", .int d.seconds), ("nanos", .int d.nanos)]

/-- The greatest number in 32 bits. -/
def maxNanos : Nat := 4294967295

/-- Nanoseconds of a second and more carry into the seconds, which have to fit 64 bits. -/
def carried? (seconds nanos : Nat) : Option Duration :=
  let s := seconds + nanos / 1000000000
  if s ≤ Text.maxUnsigned64 then some ⟨s, nanos % 1000000000⟩ else none

/-- Read a length of time; it has no keys but its two members. -/
def ofJson? (j : Json) : Option Duration := do
  let known := match j with
    | .obj entries => entries.all fun (k, _) => k = "secs" || k = "nanos"
    | _ => true
  if !known then none
  let (seconds, nanos) ← Shape.read (do
    let seconds ← Shape.required "secs" asUnsigned64?
    let nanos ← Shape.required "nanos" (asNatUpTo? maxNanos)
    return (seconds, nanos)) j
  carried? seconds nanos

end Duration

namespace Timestamp

def toJson (t : Timestamp) : Json := .int t.millis

def ofJson? (j : Json) : Option Timestamp := j.asUnsigned64?.map Timestamp.mk

end Timestamp

/-! ## Records and items -/

namespace Record

def encode (r : Record) : Json :=
  object [("model", .str r.model), ("id", .str r.id), ("fields", .ofDict r.fields)]

def shape : Shape Record := do
  let model ← Shape.required "model" asText?
  let id ← Shape.required "id" asText?
  let fields ← Shape.required "fields" asObject?
  return ⟨model, id, fields⟩

def decode? : Json → Option Record := Shape.read shape

end Record

namespace Metadata

def encode (m : Metadata) : Json :=
  object [("version", .int m.version), ("last_changed_at", m.lastChangedAt.toJson),
    ("is_deleted", .bool m.deleted)]

def shape : Shape Metadata := do
  let version ← Shape.required "version" asSigned64?
  let lastChangedAt ← Shape.required "last_changed_at" Timestamp.ofJson?
  let deleted ← Shape.required "is_deleted" asBool?
  return ⟨version, lastChangedAt, deleted⟩

def decode? : Json → Option Metadata := Shape.read shape

end Metadata

namespace Item

def encode (i : Item) : Json :=
  object [("record", i.record.encode), ("metadata", i.metadata.encode)]

def shape : Shape Item := do
  let record ← Shape.required "record" Record.decode?
  let metadata ← Shape.required "metadata" Metadata.decode?
  return ⟨record, metadata⟩

def decode? : Json → Option Item := Shape.read shape

end Item

namespace Watermark

def encode (w : Watermark) : Json :=
  object [("last_sync", w.lastSync.toJson), ("model_set_version", .ofText? w.modelSetVersion),
    ("locale", .ofText? w.locale)]

def shape : Shape Watermark := do
  let lastSync ← Shape.required "last_sync" Timestamp.ofJson?
  let modelSetVersion ← Shape.optional "model_set_version" (nullable? asText?)
  let locale ← Shape.optional "locale" (nullable? asText?)
  return ⟨lastSync, modelSetVersion, locale⟩

def decode? : Json → Option Watermark := Shape.read shape

end Watermark

end Replica
