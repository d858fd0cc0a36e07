/-
Replica.Record.Basic — records and their well-known fields.

A record is one instance of a named model: an identifier and JSON fields. The
identifier has a place of its own, so a field update cannot change it: setting the
field `id` does nothing and reading it gives nothing. As flat JSON a record is the
object of its fields with `id` among them; reading one back leaves out `id` and all
keys that start with an underscore.
-/
import Replica.Json.Printer
import Replica.Text.Blank
import Replica.Time.DateTime

namespace Replica

/-! ## Well-known field names -/

namespace FieldName

def id : String := "id"
def name : String := "name"
def sort : String := "sort"
def locale : String := "locale"
def grayRelease : String := "grayRelease"
def materialId : String := "materialID"
def updatedAt : String := "updatedAt"
def version : String := "_version"
/-- The key of a wire item for the time of its last change. -/
def lastChangedAt : String := "_lastChangedAt"
def deleted : String := "_deleted"

end FieldName

/-- One instance of a model. -/
structure Record where
  model : String
  id : String
  fields : Fields
  deriving DecidableEq, Inhabited

namespace Record

/-! ## Fields -/

def blank (model id : String) : Record := ⟨model, id, Dict.empty⟩

/-- Set a field; setting `id` is ignored. -/
def set (r : Record) (name : String) (value : Json) : Record :=
  if name = FieldName.id then r else { r with fields := r.fields.insert name value }

/-- Set every field of a list, in order. -/
def setAll (r : Record) (values : List (String × Json)) : Record :=
  values.foldl (fun r e => r.set e.1 e.2) r

/-- The value of a field; `null` counts as absent, and `id` is no field. -/
def get? (r : Record) (name : String) : Option Json :=
  if name = FieldName.id then none
  else (r.fields.get? name).filter (fun v => !v.isNull)

def text? (r : Record) (name : String) : Option String := (r.get? name).bind Json.asText?

/-- The nearest 64-bit integer with a sign. -/
def clamp64 (n : Int) : Int := max (-(Text.maxSigned64 + 1 : Int)) (min n Text.maxSigned64)

/-- The integer that a value stands for: whole numbers of either kind, cut to the
64-bit range, and texts that read as one between blanks. -/
def integerOf? : Json → Option Int
  | .int n => some (clamp64 n)
  | .real x => x.toInt?.map clamp64
  | .str s =>
    match Text.readSigned64 (Text.trim s) with
    | .ok n => some n
    | .error _ => none
  | _ => none

/-- A field that stands for an integer. -/
def integer? (r : Record) (name : String) : Option Int := (r.get? name).bind integerOf?

/-- The place in the display order. -/
def sort? (r : Record) : Option Int := r.integer? FieldName.sort

def locale? (r : Record) : Option String := r.text? FieldName.locale

def grayRelease? (r : Record) : Option Int := r.integer? FieldName.grayRelease

/-- The identifier of the base record that an overlay points at. -/
def materialId? (r : Record) : Option String := r.text? FieldName.materialId

/-- The display name, unless it is empty. -/
def displayName? (r : Record) : Option String := (r.text? FieldName.name).filter (· ≠ "")

/-- The time of the last update, if it is written as a date and time. -/
def updatedAt? (r : Record) : Option Timestamp :=
  (r.text? FieldName.updatedAt).bind fun s =>
    match Timestamp.parse s with
    | .ok t => some t
    | .error _ => none

/-! ## Flat JSON -/

/-- Why a value is no record. -/
inductive Fault where
  | notAnObject
  | missingId
  deriving DecidableEq, Repr

def Fault.message : Fault → String
  | notAnObject => "invalid record: expected a JSON object"
  | missingId => "invalid record: missing id"

def toJson (r : Record) : Json := Json.ofDict (r.fields.insert FieldName.id (.str r.id))

/-- The identifier that a value gives: a text that is not empty, or a number's text. -/
def idOf? : Option Json → Option String
  | some (.str s) => if s = "" then none else some s
  | some (.int n) => some (toString n)
  | some (.real x) => some (Json.realText x)
  | _ => none

/-- Whether a key of a flat object is a field. -/
def isFieldKey (key : String) : Bool := key ≠ FieldName.id && key.toList.head? ≠ some '_'

/-- Read a record of a model from a flat object. -/
def ofJson (model : String) (j : Json) : Except Fault Record :=
  match j.asObject? with
  | none => .error .notAnObject
  | some entries =>
    match idOf? (entries.get? FieldName.id) with
    | none => .error .missingId
    | some id => .ok ⟨model, id, entries.filterKeys isFieldKey⟩

end Record

end Replica
