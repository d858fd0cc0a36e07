/-
Replica.Seed.Codec — the stored form of snapshots and of what they are compared by.
-/
import Replica.Record.Codec
import Replica.Seed.Snapshot

namespace Replica

open Json

namespace Snapshot

def encode (s : Snapshot) : Json :=
  object [("path", .str s.path), ("schema_version", .ofText? s.schemaVersion),
    ("extra_version", .int s.extraVersion), ("updated_at", s.updatedAt.toJson)]

def shape : Shape Snapshot := do
  let path ← Shape.required "path" asText?
  let schemaVersion ← Shape.defaulted "schema_version" none (nullable? asText?)
  let extraVersion ← Shape.required "extra_version" asSigned64?
  let updatedAt ← Shape.required "updated_at" Timestamp.ofJson?
  return ⟨path, schemaVersion, extraVersion, updatedAt⟩

def decode? : Json → Option Snapshot := Shape.read shape

end Snapshot

/-- Where the local database is and what it may be seeded from. -/
structure SeedConfig where
  path : String
  snapshot : Option Snapshot

namespace SeedConfig

def encode (c : SeedConfig) : Json :=
  object [("path", .str c.path), ("snapshot", (c.snapshot.map Snapshot.encode).getD .null)]

def shape : Shape SeedConfig := do
  let path ← Shape.required "path" asText?
  let snapshot ← Shape.defaulted "snapshot" none (nullable? Snapshot.decode?)
  return ⟨path, snapshot⟩

def decode? : Json → Option SeedConfig := Shape.read shape

end SeedConfig

namespace VersionMarkers

def encode (m : VersionMarkers) : Json :=
  object [("schema_version", .ofText? m.schemaVersion), ("extra_version", .int m.extraVersion)]

end VersionMarkers

namespace SeedOutcome

def encode : SeedOutcome → Json
  | noAction => .str "NoAction"
  | replaced markers lastSync =>
    object [("Replaced", object [("markers", markers.encode), ("watermark", lastSync.toJson)])]

end SeedOutcome

end Replica
