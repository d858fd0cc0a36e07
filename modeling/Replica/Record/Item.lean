/-
Replica.Record.Item — records as a sync page delivers them.

An item is a record with the version, the time of the last change and the tombstone
flag that the backend keeps for it. On the wire these stand beside the fields under
keys that start with an underscore; a key that is missing or of another kind counts
as version 0, time zero, not deleted.
-/
import Replica.Record.Basic

namespace Replica

/-- What the backend keeps about a record. -/
structure Metadata where
  version : Int
  lastChangedAt : Timestamp
  deleted : Bool
  deriving DecidableEq, Inhabited

/-- A record with its metadata. -/
structure Item where
  record : Record
  metadata : Metadata
  deriving DecidableEq, Inhabited

namespace Item

/-- Whether the item says that its record is gone. -/
def isTombstone (i : Item) : Bool := i.metadata.deleted

/-- The metadata among the entries of a wire item. -/
def metadataOf (j : Json) : Metadata where
  version := ((j.get? FieldName.version).bind Json.asSigned64?).getD 0
  lastChangedAt :=
    ((j.get? FieldName.lastChangedAt).bind Json.asUnsigned64?).elim .zero Timestamp.mk
  deleted := ((j.get? FieldName.deleted).bind Json.asBool?).getD false

/-- Read an item of a model from its wire form. -/
def ofWire (model : String) (j : Json) : Except Record.Fault Item :=
  (Record.ofJson model j).map fun record => ⟨record, metadataOf j⟩

/-- The wire form: the fields, the identifier and the metadata in one object. -/
def toWire (i : Item) : Json :=
  Json.ofDict <|
    (((i.record.fields.insert FieldName.id (.str i.record.id)).insert
      FieldName.version (.int i.metadata.version)).insert
      FieldName.lastChangedAt (.int i.metadata.lastChangedAt.millis)).insert
      FieldName.deleted (.bool i.metadata.deleted)

end Item

/-- How far a replica has come: everything the backend changed before `lastSync` is
merged, under the model set and the locale recorded with it. -/
structure Watermark where
  lastSync : Timestamp
  modelSetVersion : Option String
  locale : Option String
  deriving DecidableEq, Inhabited

namespace Watermark

/-- A watermark that records no model set and no locale. -/
def reached (t : Timestamp) : Watermark := ⟨t, none, none⟩

/-- Whether nothing was ever merged. -/
def isInitial (w : Watermark) : Bool := w.lastSync.isZero

/-- Whether the recorded locale differs from the configured one. -/
def localeChanged (w : Watermark) (current : Option String) : Bool := w.locale ≠ current

end Watermark

end Replica
