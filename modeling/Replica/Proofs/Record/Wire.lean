/-
Replica.Proofs.Record.Wire — items survive the wire.

On the wire the fields of an item share one object with its identifier and its metadata.
Nothing is lost as long as no field has one of their keys, the identifier is not empty and
the metadata fit 64 bits (`Item.WireSafe`); then the wire form is read back as the item
(`ofWire_toWire`).
-/
import Replica.Record.Item

namespace Replica

@[simp] theorem Json.get?_ofDict (d : Dict Json) (key : String) :
    (Json.ofDict d).get? key = d.get? key := by
  rw [Json.get?, Json.asObject?_ofDict]
  rfl

namespace Metadata

/-- The version fits 64 bits with a sign, the time 64 bits without one. -/
structure InRange (m : Metadata) : Prop where
  low : -(Text.maxSigned64 + 1 : Int) ≤ m.version
  high : m.version ≤ Text.maxSigned64
  time : m.lastChangedAt.millis ≤ Timestamp.maxMillis

end Metadata

/-- The fields keep clear of the keys that are not fields. -/
def Fields.Proper (fields : Fields) : Prop :=
  ∀ key, Record.isFieldKey key = false → fields.get? key = none

namespace Item

/-- An item of which the wire form keeps everything. -/
structure WireSafe (i : Item) : Prop where
  id : i.record.id ≠ ""
  fields : Fields.Proper i.record.fields
  metadata : i.metadata.InRange

/-- The entries of the wire form. -/
def wireEntries (i : Item) : Dict Json :=
  (((i.record.fields.insert FieldName.id (.str i.record.id)).insert
    FieldName.version (.int i.metadata.version)).insert
    FieldName.lastChangedAt (.int i.metadata.lastChangedAt.millis)).insert
    FieldName.deleted (.bool i.metadata.deleted)

theorem toWire_eq (i : Item) : toWire i = .ofDict (wireEntries i) := rfl

theorem not_isFieldKey : ∀ key ∈ [FieldName.id, FieldName.version, FieldName.lastChangedAt,
    FieldName.deleted], Record.isFieldKey key = false := by
  decide +kernel

theorem get?_wireEntries (i : Item) {key : String} (h : Record.isFieldKey key = true) :
    (wireEntries i).get? key = i.record.fields.get? key := by
  have hne : ∀ other ∈ [FieldName.id, FieldName.version, FieldName.lastChangedAt,
      FieldName.deleted], other ≠ key := by
    rintro other hother rfl
    rw [not_isFieldKey other hother] at h
    cases h
  simp only [List.mem_cons, List.not_mem_nil, or_false, forall_eq_or_imp, forall_eq] at hne
  obtain ⟨hid, hversion, htime, hdeleted⟩ := hne
  simp only [wireEntries, Dict.get?_insert, if_neg hid, if_neg hversion, if_neg htime,
    if_neg hdeleted]

theorem filterKeys_wireEntries {i : Item} (h : Fields.Proper i.record.fields) :
    (wireEntries i).filterKeys Record.isFieldKey = i.record.fields := by
  refine Dict.ext_get? fun key => ?_
  rw [Dict.get?_filterKeys]
  by_cases hkey : Record.isFieldKey key = true
  · rw [if_pos hkey, get?_wireEntries i hkey]
  · rw [if_neg hkey, h key (by simpa using hkey)]

theorem wireEntries_id (i : Item) :
    (wireEntries i).get? FieldName.id = some (.str i.record.id) := by
  have hversion : FieldName.version ≠ FieldName.id := by decide
  have htime : FieldName.lastChangedAt ≠ FieldName.id := by decide
  have hdeleted : FieldName.deleted ≠ FieldName.id := by decide
  simp [wireEntries, hversion, htime, hdeleted]

theorem wireEntries_version (i : Item) :
    (wireEntries i).get? FieldName.version = some (.int i.metadata.version) := by
  have htime : FieldName.lastChangedAt ≠ FieldName.version := by decide
  have hdeleted : FieldName.deleted ≠ FieldName.version := by decide
  simp [wireEntries, htime, hdeleted]

theorem wireEntries_lastChangedAt (i : Item) :
    (wireEntries i).get? FieldName.lastChangedAt
      = some (.int i.metadata.lastChangedAt.millis) := by
  have hdeleted : FieldName.deleted ≠ FieldName.lastChangedAt := by decide
  simp [wireEntries, hdeleted]

theorem wireEntries_deleted (i : Item) :
    (wireEntries i).get? FieldName.deleted = some (.bool i.metadata.deleted) := by
  simp [wireEntries]

theorem metadataOf_toWire {i : Item} (h : i.metadata.InRange) :
    metadataOf (toWire i) = i.metadata := by
  have hversion : (Json.int i.metadata.version).asSigned64? = some i.metadata.version :=
    if_pos ⟨h.low, h.high⟩
  have htime : (Json.int i.metadata.lastChangedAt.millis).asUnsigned64?
      = some i.metadata.lastChangedAt.millis :=
    if_pos ⟨Int.natCast_nonneg _, Int.ofNat_le.2 h.time⟩
  simp [metadataOf, toWire_eq, wireEntries_version, wireEntries_lastChangedAt,
    wireEntries_deleted, hversion, htime, Json.asBool?]

/-- **An item is read back from its wire form.** -/
theorem ofWire_toWire {i : Item} (h : i.WireSafe) : ofWire i.record.model (toWire i) = .ok i := by
  have hrecord : Record.ofJson i.record.model (toWire i) = .ok i.record := by
    rw [Record.ofJson, toWire_eq, Json.asObject?_ofDict]
    simp [wireEntries_id, Record.idOf?, h.id, filterKeys_wireEntries h.fields]
  rw [ofWire, hrecord, metadataOf_toWire h.metadata]
  rfl

theorem toWire_not_isNull (i : Item) : (toWire i).isNull = false := rfl

theorem ofWire_model {model : String} {j : Json} {i : Item} (h : ofWire model j = .ok i) :
    i.record.model = model := by
  unfold ofWire Record.ofJson at h
  split at h
  · simp [Except.map] at h
  · split at h
    · simp [Except.map] at h
    · simp only [Except.map] at h
      cases h
      rfl

end Item

end Replica
