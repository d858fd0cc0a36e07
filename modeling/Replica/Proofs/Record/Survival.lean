/-
Replica.Proofs.Record.Survival — exactly which items survive the wire.

What is read from a wire form is always an item that the wire keeps (`wireSafe_of_ofWire`): its
identifier is the text of a string or of a number and so not empty, keys that are no fields
are left out, and metadata that do not fit their range count as missing. With `ofWire_toWire`
this gives both directions: an item survives the wire exactly when it is safe there
(`ofWire_toWire_iff`), and reading once brings every wire form to its normal form
(`survives_wire`).
-/
import Replica.Proofs.Record.Wire

namespace Replica

/-! ## Identifiers from numbers -/

namespace DecimalLayout

theorem layOut_ne_nil (l : DecimalLayout) (ds : List Char) (place : Int) :
    l.layOut ds place ≠ [] := by
  unfold layOut
  split
  · simp
  · split
    · simp
    · dsimp only
      split <;> simp

end DecimalLayout

theorem Json.realText_ne_empty (x : Double) : realText x ≠ "" := by
  intro h
  have hlist := congrArg String.toList h
  simp only [realText, String.toList_ofList, String.toList_empty, List.append_eq_nil_iff] at hlist
  exact DecimalLayout.layOut_ne_nil _ _ _ hlist.2

theorem Text.toString_int_ne_empty (n : Int) : toString n ≠ "" := by
  intro h
  have hlist := congrArg String.toList h
  cases n with
  | ofNat n =>
    have hdigits : (toString (Int.ofNat n)).toList = Nat.toDigits 10 n := Nat.toList_repr
    exact Nat.toDigits_ne_nil (hdigits.symm.trans hlist)
  | negSucc n =>
    have hsign : (toString (Int.negSucc n)).toList = '-' :: (toString (n + 1)).toList := by
      show ("-" ++ toString (n + 1)).toList = _
      rw [String.toList_append]
      rfl
    rw [hsign] at hlist
    cases hlist

namespace Record

/-- An identifier that a value gives is not empty. -/
theorem idOf?_ne_empty {v : Option Json} {id : String} (h : idOf? v = some id) : id ≠ "" := by
  unfold idOf? at h
  split at h
  case h_1 s =>
    split at h
    · cases h
    · cases h
      assumption
  case h_2 n =>
    cases h
    exact Text.toString_int_ne_empty n
  case h_3 x =>
    cases h
    exact Json.realText_ne_empty x
  case h_4 => cases h

theorem isFieldKey_eq_false_iff {key : String} :
    isFieldKey key = false ↔ key = FieldName.id ∨ ∃ rest, key = "_" ++ rest := by
  have hhead : key.toList.head? = some '_' ↔ ∃ rest, key = "_" ++ rest := by
    rw [List.head?_eq_some_iff]
    constructor
    · rintro ⟨cs, hcs⟩
      refine ⟨String.ofList cs, String.toList_inj.1 ?_⟩
      simp [hcs]
    · rintro ⟨rest, rfl⟩
      exact ⟨rest.toList, String.toList_append⟩
  simp only [isFieldKey, Bool.and_eq_false_iff, decide_eq_false_iff_not, ne_eq,
    Classical.not_not, hhead]

end Record

/-- Proper fields are those without an identifier and without names that start with an
underscore. -/
theorem Fields.proper_iff {fields : Fields} :
    fields.Proper ↔ fields.get? FieldName.id = none ∧ ∀ rest, fields.get? ("_" ++ rest) = none := by
  constructor
  · intro h
    exact ⟨h _ (Record.isFieldKey_eq_false_iff.2 (.inl rfl)),
      fun rest => h _ (Record.isFieldKey_eq_false_iff.2 (.inr ⟨rest, rfl⟩))⟩
  · rintro ⟨hid, hrest⟩ key hkey
    rcases Record.isFieldKey_eq_false_iff.1 hkey with rfl | ⟨rest, rfl⟩
    · exact hid
    · exact hrest rest

theorem Fields.proper_of_keys {fields : Fields} (h : fields.keys.all Record.isFieldKey = true) :
    fields.Proper := by
  intro key hkey
  cases hget : fields.get? key with
  | none => rfl
  | some v =>
    have hmem : key ∈ fields.keys :=
      List.mem_map.2 ⟨(key, v), Dict.mem_entries.2 hget, rfl⟩
    rw [List.all_eq_true.1 h key hmem] at hkey
    cases hkey

/-! ## What is read -/

theorem Json.asSigned64?_range {j : Json} {n : Int} (h : j.asSigned64? = some n) :
    -(Text.maxSigned64 + 1 : Int) ≤ n ∧ n ≤ Text.maxSigned64 := by
  unfold asSigned64? at h
  split at h
  · split at h
    · cases h
      assumption
    · cases h
  · cases h

theorem Json.asUnsigned64?_range {j : Json} {n : Nat} (h : j.asUnsigned64? = some n) :
    n ≤ Text.maxUnsigned64 := by
  unfold asUnsigned64? asNatUpTo? at h
  split at h
  · split at h
    · cases h
      omega
    · cases h
  · cases h

namespace Item

/-- Metadata that are read are in range; what does not fit counts as missing. -/
theorem metadataOf_inRange (j : Json) : (metadataOf j).InRange := by
  have hversion : -(Text.maxSigned64 + 1 : Int) ≤ (metadataOf j).version
      ∧ (metadataOf j).version ≤ Text.maxSigned64 := by
    simp only [metadataOf]
    cases hget : (j.get? FieldName.version).bind Json.asSigned64? with
    | none => decide
    | some n =>
      obtain ⟨v, -, hv⟩ := Option.bind_eq_some_iff.1 hget
      exact Json.asSigned64?_range hv
  have htime : (metadataOf j).lastChangedAt.millis ≤ Timestamp.maxMillis := by
    simp only [metadataOf]
    cases hget : (j.get? FieldName.lastChangedAt).bind Json.asUnsigned64? with
    | none => exact Nat.zero_le _
    | some n =>
      obtain ⟨v, -, hv⟩ := Option.bind_eq_some_iff.1 hget
      exact Json.asUnsigned64?_range hv
  exact ⟨hversion.1, hversion.2, htime⟩

/-- The wire keeps everything of an item that was read from it. -/
theorem wireSafe_of_ofWire {model : String} {j : Json} {i : Item} (h : ofWire model j = .ok i) :
    i.WireSafe := by
  unfold ofWire Record.ofJson at h
  split at h
  case h_1 => cases h
  case h_2 entries hentries =>
    split at h
    case h_1 => cases h
    case h_2 id hid =>
      cases h
      refine ⟨Record.idOf?_ne_empty hid, fun key hkey => ?_, metadataOf_inRange j⟩
      rw [Dict.get?_filterKeys, hkey]
      rfl

theorem ofWire_toWire_iff (i : Item) :
    ofWire i.record.model (toWire i) = .ok i ↔ i.WireSafe :=
  ⟨wireSafe_of_ofWire, ofWire_toWire⟩

/-- **Which items survive the wire.** An item is read back from its wire form exactly when its
identifier is not empty and no field is called `id` or starts with an underscore. Whatever the
value that an item is read from looks like, the wire form of the item gives it again. -/
theorem survives_wire :
    (∀ i : Item, i.metadata.InRange →
      (ofWire i.record.model (toWire i) = .ok i ↔
        i.record.id ≠ "" ∧ i.record.fields.get? FieldName.id = none
          ∧ ∀ rest, i.record.fields.get? ("_" ++ rest) = none))
    ∧ ∀ (model : String) (j : Json) (i : Item), ofWire model j = .ok i →
        ofWire model (toWire i) = .ok i := by
  constructor
  · intro i hrange
    rw [ofWire_toWire_iff, ← Fields.proper_iff]
    exact ⟨fun h => ⟨h.id, h.fields⟩, fun ⟨hid, hfields⟩ => ⟨hid, hfields, hrange⟩⟩
  · intro model j i h
    have hsafe := wireSafe_of_ofWire h
    rw [← ofWire_model h]
    exact ofWire_toWire hsafe

/-- An item with metadata at the ends of their ranges. -/
def atTheEnds (fields : List (String × Json)) : Item :=
  ⟨⟨"Sticker", "s1", Dict.ofEntries fields⟩,
    ⟨-9223372036854775808, ⟨18446744073709551615⟩, true⟩⟩

theorem atTheEnds_inRange (fields : List (String × Json)) : (atTheEnds fields).metadata.InRange :=
  ⟨by simp [atTheEnds, Text.maxSigned64], by simp [atTheEnds, Text.maxSigned64],
    by simp [atTheEnds, Timestamp.maxMillis, Text.maxUnsigned64]⟩

/-- What a backend may send for an item: the identifier is a number, the version a text and the
time negative. -/
def oddlySent : Json :=
  .object [("id", .real (.ofInt 7)), ("_version", .str "3"), ("_lastChangedAt", .int (-1)),
    ("_rev", .null), ("name", .str "Cat")]

/-- An item at the ends of the ranges survives, one with a field that starts with an underscore
does not, and what was read of an odd wire form does. -/
theorem atTheEnds_survives :
    ofWire "Sticker" (toWire (atTheEnds [("name", .str "Cat")]))
        = .ok (atTheEnds [("name", .str "Cat")])
      ∧ ofWire "Sticker" (toWire (atTheEnds [("_name", .str "Cat")]))
        ≠ .ok (atTheEnds [("_name", .str "Cat")])
      ∧ ofWire "Sticker" (toWire ⟨⟨"Sticker", "7.0", Dict.ofEntries [("name", .str "Cat")]⟩,
          ⟨0, .zero, false⟩⟩)
        = .ok ⟨⟨"Sticker", "7.0", Dict.ofEntries [("name", .str "Cat")]⟩, ⟨0, .zero, false⟩⟩ := by
  refine ⟨(survives_wire.1 (atTheEnds [("name", .str "Cat")]) (atTheEnds_inRange _)).2
    ⟨by decide, Fields.proper_iff.1 (Fields.proper_of_keys (by decide +kernel))⟩,
    fun h => ?_, survives_wire.2 "Sticker" oddlySent _ ?_⟩
  · have hproper :=
      ((survives_wire.1 (atTheEnds [("_name", .str "Cat")]) (atTheEnds_inRange _)).1 h).2.2 "name"
    revert hproper
    decide +kernel
  · have hread : (ofWire "Sticker" oddlySent).toOption = some ⟨⟨"Sticker", "7.0",
        Dict.ofEntries [("name", .str "Cat")]⟩, ⟨0, .zero, false⟩⟩ := by decide +kernel
    cases hitem : ofWire "Sticker" oddlySent with
    | error fault => simp [hitem, Except.toOption] at hread
    | ok i => simpa [hitem, Except.toOption] using hread

end Item

end Replica
