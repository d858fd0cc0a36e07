/-
Replica.Proofs.Predicate.FilterMeaning — what a backend filter selects.

A filter is a JSON value that the backend takes apart: `null` and the empty object select
everything, `and`, `or` and `not` are the connectives, and under any other key stand the
comparisons of the field of that name. `Filter.accepts` is this reading, independent of how
filters are built. The filter of the time of the last sync selects the records that were
updated later (`accepts_since`).
-/
import Replica.Cycle.Selection
import Replica.Predicate.Codec
import Replica.Predicate.Filter
import Replica.Proofs.Time.TextOrder

namespace Replica

namespace Filter

/-- Whether a record stands in every relation that is listed for a field. -/
def compares (x : Record) (field : String) (relations : List (String × Json)) : Bool :=
  relations.all fun (key, value) =>
    match Operator.ofKey? key with
    | some op => Predicate.comparisonHolds x field op value
    | none => false

mutual

/-- Whether a filter selects a record. -/
def accepts (x : Record) : Json → Bool
  | .null => true
  | .obj entries => acceptsEntries x entries
  | _ => false

/-- Whether every entry of a filter selects a record. -/
def acceptsEntries (x : Record) : List (String × Json) → Bool
  | [] => true
  | ("and", .arr parts) :: rest => acceptsAll x parts && acceptsEntries x rest
  | ("or", .arr parts) :: rest => acceptsSome x parts && acceptsEntries x rest
  | ("not", part) :: rest => !accepts x part && acceptsEntries x rest
  | (field, .obj relations) :: rest => compares x field relations && acceptsEntries x rest
  | _ :: _ => false

/-- Whether every filter of a list selects a record. -/
def acceptsAll (x : Record) : List Json → Bool
  | [] => true
  | part :: rest => accepts x part && acceptsAll x rest

/-- Whether some filter of a list selects a record. -/
def acceptsSome (x : Record) : List Json → Bool
  | [] => false
  | part :: rest => accepts x part || acceptsSome x rest

end

end Filter

/-! ## The time of the last sync -/

namespace Selection

/-- What is asked of a model that declares neither cohorts nor locales and has no base
predicate. -/
theorem toFilter_since (caps : Capabilities) (lastSync : Timestamp) (cohort : Int)
    (locale : Option String) (hgray : caps.grayRelease = false) (hlocale : caps.locale = false) :
    (ofCapabilities caps .all lastSync cohort locale).toFilter
      = if lastSync.isZero then .null
        else .obj [("and", .arr [.obj [(FieldName.updatedAt,
          .obj [("gt", .str lastSync.text)])]])] := by
  simp only [ofCapabilities, grayClause, localeClause, sinceClause, hgray, hlocale, narrow]
  cases lastSync.isZero <;> rfl

theorem gt_accepts (a b : String) : Operator.gt.accepts (Ord.compare a b) = decide (b < a) := by
  show decide (compareOfLessAndEq a b = .gt) = _
  unfold compareOfLessAndEq
  by_cases hlt : a < b
  · simp [hlt, String.lt_asymm hlt]
  · by_cases heq : a = b
    · subst heq
      simp only [if_neg hlt, if_true, decide_eq_false hlt]
      rfl
    · have hgt : b < a := Decidable.byContradiction fun hle =>
        heq (String.le_antisymm (String.not_lt.1 hle) (String.not_lt.1 hlt))
      simp [hlt, heq, hgt]

/-- The text of a time is greater than that of an earlier one. -/
theorem updatedAt_gt {x : Record} {t u : Timestamp}
    (hx : x.get? FieldName.updatedAt = some (.str u.text))
    (ht : t.millis ≤ Timestamp.lastShort) (hu : u.millis ≤ Timestamp.lastShort) :
    Predicate.comparisonHolds x FieldName.updatedAt .gt (.str t.text)
      = decide (t.millis < u.millis) := by
  have hoperand : Predicate.operand? x FieldName.updatedAt = some (.str u.text) := by
    have hid : FieldName.updatedAt ≠ FieldName.id := by decide
    rw [Predicate.operand?, if_neg hid, hx]
  rw [Predicate.comparisonHolds, hoperand]
  show Operator.gt.accepts (Ord.compare u.text t.text) = _
  rw [gt_accepts]
  exact decide_eq_decide.2 (Timestamp.text_lt_iff ht hu)

/-- The filter of such a model selects the records that were updated after the last sync. -/
theorem accepts_since (caps : Capabilities) {lastSync t : Timestamp} (cohort : Int)
    (locale : Option String) (hgray : caps.grayRelease = false) (hlocale : caps.locale = false)
    {x : Record} (hx : x.fields.get? FieldName.updatedAt = some (.str t.text))
    (hsync : lastSync.millis ≤ Timestamp.lastShort) (ht : t.millis ≤ Timestamp.lastShort)
    (hpos : 0 < t.millis) :
    Filter.accepts x (ofCapabilities caps .all lastSync cohort locale).toFilter
      = decide (lastSync.millis < t.millis) := by
  rw [toFilter_since caps lastSync cohort locale hgray hlocale]
  by_cases hzero : lastSync.isZero = true
  · have hmillis : lastSync.millis = 0 := by simpa [Timestamp.isZero] using hzero
    simp [hzero, Filter.accepts, hmillis, hpos]
  · have hread : x.get? FieldName.updatedAt = some (.str t.text) := by
      have hid : FieldName.updatedAt ≠ FieldName.id := by decide
      rw [Record.get?, if_neg hid, hx]
      rfl
    have hholds := updatedAt_gt hread hsync ht
    have hop : Operator.ofKey? "gt" = some .gt := rfl
    rw [if_neg hzero]
    simp [Filter.accepts, Filter.acceptsEntries, Filter.acceptsAll, FieldName.updatedAt,
      Filter.compares, hop]
    exact hholds

end Selection

end Replica
