/-
Replica.Schema.Codec — the stored form of schemas.
-/
import Replica.Json.Shape
import Replica.Schema.Model

namespace Replica

open Json

namespace FieldType

def key : FieldType → String
  | id => "id"
  | string => "string"
  | int => "int"
  | float => "float"
  | boolean => "boolean"
  | dateTime => "date_time"
  | json => "json"

def ofKey? : String → Option FieldType
  | "id" => some id
  | "string" => some string
  | "int" => some int
  | "float" => some float
  | "boolean" => some boolean
  | "date_time" => some dateTime
  | "json" => some json
  | _ => none

def encode (t : FieldType) : Json := .str t.key

def decode? : Json → Option FieldType := plainCase? ofKey?

end FieldType

namespace FieldDef

def encode (f : FieldDef) : Json :=
  object [("name", .str f.name), ("field_type", f.type.encode)]

def shape : Shape FieldDef := do
  let name ← Shape.required "name" asText?
  let type ← Shape.required "field_type" FieldType.decode?
  return ⟨name, type⟩

def decode? : Json → Option FieldDef := Shape.read shape

end FieldDef

namespace ModelSchema

def encode (s : ModelSchema) : Json :=
  object [("name", .str s.name), ("plural_name", .str s.plural),
    ("fields", .arr (s.fields.map FieldDef.encode))]

def shape : Shape ModelSchema := do
  let name ← Shape.required "name" asText?
  let plural ← Shape.required "plural_name" asText?
  let fields ← Shape.required "fields" (listOf? FieldDef.decode?)
  return ⟨name, plural, fields⟩

def decode? : Json → Option ModelSchema := Shape.read shape

end ModelSchema

namespace Capabilities

def encode (c : Capabilities) : Json :=
  object [("gray_release", .bool c.grayRelease), ("locale", .bool c.locale),
    ("sort", .bool c.sort), ("material_id", .bool c.materialId),
    ("locale_overlay", .bool c.localeOverlay)]

def shape : Shape Capabilities := do
  let grayRelease ← Shape.required "gray_release" asBool?
  let locale ← Shape.required "locale" asBool?
  let sort ← Shape.required "sort" asBool?
  let materialId ← Shape.required "material_id" asBool?
  let localeOverlay ← Shape.required "locale_overlay" asBool?
  return ⟨grayRelease, locale, sort, materialId, localeOverlay⟩

def decode? : Json → Option Capabilities := Shape.read shape

end Capabilities

end Replica
