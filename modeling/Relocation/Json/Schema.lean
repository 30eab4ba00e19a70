import Relocation.Json.Document
import Relocation.Json.Record

/-!
# Schemas

What a record may look like, as a JSON schema.
-/

namespace Relocation.Json.Schema

/-- The names of what a schema describes, and the words about it. -/
structure Titles where
  record : String
  recordDescription : String
  /-- The names of a variant. -/
  variant : String
  variantDescription : String
  deriving DecidableEq, Inhabited, Repr

/-- The draft that schemas are written to. -/
def draft : String :=
  String.intercalate "/" ["http:", "", "json-schema.org", "draft-07", "schema#"]

/-- The schema of a type. -/
def ofType (titles : Titles) : MemberType → Members
  | .string => [("type", .string "string")]
  | .optionalString => [("type", .array [.string "string", .string "null"])]
  | .strings => [("type", .string "array"), ("items", .object [("type", .string "string")])]
  | .flag => [("type", .string "boolean")]
  | .variant _ => [("$ref", .string ("#/definitions/" ++ titles.variant))]
  | .anything => []
/-- A value as a default. -/
def ofValue : MemberValue → Document
  | .none => .null
  | .string s => .string s
  | .strings ss => .array (ss.map .string)
  | .flag b => .boolean b

/-- The schema of a member. -/
def ofMember (titles : Titles) (m : Member) : Document :=
  .object <| ofType titles m.type ++
    match m.fallback with
    | some v => [("default", ofValue v)]
    | none => []

/-- The schema of the names of a variant. -/
def ofNames (titles : Titles) (names : List String) : Document :=
  .object [("description", .string titles.variantDescription), ("type", .string "string"),
    ("enum", .array (names.map .string))]

/-- The schema of a record. -/
def ofShape (titles : Titles) (shape : Shape) : Document :=
  let required := shape.members.filter (·.fallback.isNone)
  let variants := shape.members.filterMap fun m ↦ match m.type with
    | .variant names => some names
    | _ => none
  .object
    [("$schema", .string draft),
     ("title", .string titles.record),
     ("description", .string titles.recordDescription),
     ("type", .string "object"),
     ("required", .array ((required.map (·.name)).mergeSort.map .string)),
     ("properties", .object (shape.members.map fun m ↦ (m.name, ofMember titles m))),
     ("definitions", .object (variants.map fun names ↦ (titles.variant, ofNames titles names)))]

end Relocation.Json.Schema
