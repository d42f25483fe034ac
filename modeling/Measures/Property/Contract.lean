import Measures.Property.Category
import Measures.Property.Name
import Measures.Schema.Reading

/-!
# The contract of registry documents

The packaged schema of a document that lists definitions, as JSON and as the schema that it writes.
-/

namespace Measures.Property

/-! ## The document -/

def namePattern : String := "^[a-z][a-z0-9]*(-[a-z0-9]+)*$"

def versionPattern : String := "^[0-9]+$"

def itemFieldsJson : List (String × Json) := [
  ("index", .obj [("type", .str "integer"), ("minimum", .int 0)]),
  ("name", .obj [("type", .str "string"), ("pattern", .str namePattern)]),
  ("categories", .obj [
    ("type", .str "array"),
    ("minItems", .int 1),
    ("uniqueItems", .bool true),
    ("items", .obj [("enum", .arr (Category.all.map fun c => .str c.text))])]),
  ("description", .obj [("type", .str "string")])]

def itemSchemaJson : Json := .obj [
  ("type", .str "object"),
  ("additionalProperties", .bool false),
  ("required", .arr [.str "index", .str "name", .str "categories"]),
  ("properties", .obj itemFieldsJson)]

def registryFieldsJson : List (String × Json) := [
  ("schema_version", .obj [("type", .str "string"), ("pattern", .str versionPattern)]),
  ("properties", .obj [("type", .str "array"), ("items", itemSchemaJson)])]

def registrySchemaJson : Json := .obj [
  ("$schema", .str "https://json-schema.org/draft/2020-12/schema"),
  ("$id", .str "https://fo-numeric/contracts/property_registry.json"),
  ("title", .str "property_registry"),
  ("description", .str "Legal numeric value categories of formatting properties"),
  ("type", .str "object"),
  ("additionalProperties", .bool false),
  ("required", .arr [.str "schema_version", .str "properties"]),
  ("properties", .obj registryFieldsJson)]

/-! ## The schema -/

def versionForm : Pattern :=
  .seq .start (.seq (.many 1 none (anyOf [('0', '9')])) .finish)

theorem ofText?_namePattern : Pattern.ofText? namePattern = some nameForm := by decide +kernel

theorem ofText?_versionPattern : Pattern.ofText? versionPattern = some versionForm := by
  decide +kernel

def textSchema (p : Pattern) : Schema := .all [.type [.string], .pattern p]

def categoriesSchema : Schema := .all [.type [.array], .minItems 1, .uniqueItems true,
  .items 0 (.all [.enum (Category.all.map fun c => .str c.text)])]

def itemFields : List (String × Schema) := [
  ("index", .all [.type [.integer], .minimum (.int 0)]),
  ("name", textSchema nameForm),
  ("categories", categoriesSchema),
  ("description", .all [.type [.string]])]

def itemSchema : Schema := .all [
  .type [.object],
  .additionalProperties ["index", "name", "categories", "description"] [] .never,
  .required ["index", "name", "categories"],
  .properties itemFields]

def registryFields : List (String × Schema) := [
  ("schema_version", textSchema versionForm),
  ("properties", .all [.type [.array], .items 0 itemSchema])]

def registrySchema : Schema := .all [
  .type [.object],
  .additionalProperties ["schema_version", "properties"] [] .never,
  .required ["schema_version", "properties"],
  .properties registryFields]

/-! ## The document writes the schema -/

theorem ofJson?_text {s : String} {p : Pattern} (h : Pattern.ofText? s = some p) :
    Schema.ofJson? (.obj [("type", .str "string"), ("pattern", .str s)]) = some (textSchema p) := by
  have hp : Schema.dataConstraint? "pattern" (.str s) = some [.pattern p] := by
    show Schema.one? (((Schema.string? (.str s)).bind Pattern.ofText?).map .pattern) = _
    simp [Schema.string?, h, Schema.one?]
  show Schema.assemble? [("type", .data (.str "string")), ("pattern", .data (.str s))] = _
  simp [Schema.assemble?, Schema.constraint?, hp]
  rfl

theorem fields?_itemFieldsJson : Schema.fields? itemFieldsJson = some itemFields := by
  rw [itemFieldsJson, Schema.fields?, Schema.fields?, ofJson?_text ofText?_namePattern]
  rfl

theorem ofJson?_itemSchemaJson : Schema.ofJson? itemSchemaJson = some itemSchema := by
  rw [itemSchemaJson, Schema.ofJson?, Schema.pieces?_data _ _ rfl, Schema.pieces?_schema _ _ rfl,
    Schema.pieces?_data _ _ rfl, Schema.pieces?_object _ _ rfl, fields?_itemFieldsJson]
  rfl

theorem fields?_registryFieldsJson :
    Schema.fields? registryFieldsJson = some registryFields := by
  rw [registryFieldsJson, Schema.fields?, ofJson?_text ofText?_versionPattern, Schema.fields?,
    Schema.ofJson?, Schema.pieces?_data _ _ rfl, Schema.pieces?_schema _ _ rfl,
    ofJson?_itemSchemaJson]
  rfl

theorem ofJson?_registrySchemaJson : Schema.ofJson? registrySchemaJson = some registrySchema := by
  rw [registrySchemaJson, Schema.ofJson?, Schema.pieces?_data _ _ rfl, Schema.pieces?_data _ _ rfl,
    Schema.pieces?_data _ _ rfl, Schema.pieces?_data _ _ rfl, Schema.pieces?_data _ _ rfl,
    Schema.pieces?_schema _ _ rfl, Schema.pieces?_data _ _ rfl, Schema.pieces?_object _ _ rfl,
    fields?_registryFieldsJson]
  rfl

end Measures.Property
