import Measures.Pattern.Reading
import Measures.Schema.Basic

/-!
# Schemas from JSON

A document is a schema if it is a truth value or an object whose keywords all have values of the
form that they need. Unknown keywords and annotations constrain nothing.
-/

namespace Measures.Schema

/-! ## Values of keywords -/

/-- The value of a keyword, with the schemas in it already read. -/
inductive Piece where
  | schema (s : Schema)
  | schemas (parts : List Schema)
  | fields (parts : List (String × Schema))
  | data (j : Json)

inductive Form where
  | schema
  | array
  | object
  | data

def formOf : String → Form
  | "items" | "contains" | "additionalProperties" | "propertyNames" | "if" | "then" | "else"
  | "not" | "unevaluatedItems" | "unevaluatedProperties" | "contentSchema" => .schema
  | "prefixItems" | "allOf" | "anyOf" | "oneOf" => .array
  | "properties" | "patternProperties" | "dependentSchemas" | "$defs" | "definitions" => .object
  | _ => .data

/-! ## Forms of data -/

def string? : Json → Option String
  | .str s => some s
  | _ => none

def boolean? : Json → Option Bool
  | .bool b => some b
  | _ => none

/-- A count, which may be written as a float without a fraction. -/
def count? : Json → Option Nat
  | .int i => if 0 ≤ i then some i.toNat else none
  | .float x => x.toInt?.bind fun i => if 0 ≤ i then some i.toNat else none
  | _ => none

def array? : Json → Option (List Json)
  | .arr js => some js
  | _ => none

def strings? (j : Json) : Option (List String) := do
  let js ← array? j
  let names ← js.mapM string?
  if Json.distinct js then return names else none

def object? : Json → Option (List (String × Json))
  | .obj members => some members
  | _ => none

def types? : Json → Option (List JsonType)
  | .str s => (JsonType.ofText? s).map ([·])
  | j => do
    let names ← strings? j
    if names.isEmpty then none
    names.mapM JsonType.ofText?

def positive? (j : Json) : Option Json.Num := do
  let n ← j.num? false
  if (Json.Num.int 0).less n then return n else none

/-- A name for a schema: at most its last character is a `#`. -/
def identity? (j : Json) : Option String := do
  let s ← string? j
  if (s.toList.dropWhile (· != '#')).length ≤ 1 then return s else none

/-- A name for a part of a schema: a letter or an underscore, then also digits, hyphens and
dots. -/
def anchor? (j : Json) : Option String := do
  let s ← string? j
  match s.toList with
  | [] => none
  | c :: rest =>
    let begins := c.isAlpha || c = '_'
    if begins && rest.all (fun d => d.isAlphanum || "-._".contains d) then return s else none

def switches? (j : Json) : Option (List Bool) := do
  (← object? j).mapM fun (_, value) => boolean? value

def dependencies? (j : Json) : Option (List (String × List String)) := do
  (← object? j).mapM fun (key, names) => return (key, ← strings? names)

/-! ## Keywords -/

def one? (s : Option Schema) : Option (List Schema) := s.map ([·])

/-- No constraint, for a value of the right form. -/
def nothing? {α : Type} (form : Option α) : Option (List Schema) := form.map fun _ => []

/-- The constraint of a keyword whose value is no schema; `none` if the value has a wrong form. -/
def dataConstraint? (keyword : String) (j : Json) : Option (List Schema) :=
  match keyword with
  | "type" => one? ((types? j).map .type)
  | "enum" => one? ((array? j).map .enum)
  | "const" => some [.const j]
  | "minimum" => one? ((j.num? false).map .minimum)
  | "maximum" => one? ((j.num? false).map .maximum)
  | "exclusiveMinimum" => one? ((j.num? false).map .exclusiveMinimum)
  | "exclusiveMaximum" => one? ((j.num? false).map .exclusiveMaximum)
  | "multipleOf" => one? ((positive? j).map .multipleOf)
  | "minLength" => one? ((count? j).map .minLength)
  | "maxLength" => one? ((count? j).map .maxLength)
  | "pattern" => one? (((string? j).bind Pattern.ofText?).map .pattern)
  | "minItems" => one? ((count? j).map .minItems)
  | "maxItems" => one? ((count? j).map .maxItems)
  | "uniqueItems" => one? ((boolean? j).map .uniqueItems)
  | "minProperties" => one? ((count? j).map .minProperties)
  | "maxProperties" => one? ((count? j).map .maxProperties)
  | "required" => one? ((strings? j).map .required)
  | "dependentRequired" => one? ((dependencies? j).map .dependentRequired)
  | "minContains" | "maxContains" => nothing? (count? j)
  | "$ref" | "$dynamicRef" => one? ((string? j).map .reference)
  | "$id" => nothing? (identity? j)
  | "$anchor" | "$dynamicAnchor" | "$recursiveAnchor" => nothing? (anchor? j)
  | "$schema" | "$comment" | "$recursiveRef" | "title" | "description" | "format"
  | "contentEncoding" | "contentMediaType" => nothing? (string? j)
  | "deprecated" | "readOnly" | "writeOnly" => nothing? (boolean? j)
  | "examples" => nothing? (array? j)
  | "$vocabulary" => nothing? (switches? j)
  | _ => some []

/-- The schema of a keyword, `true` if it is not there. -/
def partOf (pieces : List (String × Piece)) (keyword : String) : Schema :=
  match pieces.lookup keyword with
  | some (.schema s) => s
  | _ => always

def fieldsOf (pieces : List (String × Piece)) (keyword : String) : List (String × Schema) :=
  match pieces.lookup keyword with
  | some (.fields parts) => parts
  | _ => []

def countOf? (pieces : List (String × Piece)) (keyword : String) : Option Nat :=
  match pieces.lookup keyword with
  | some (.data j) => count? j
  | _ => none

/-- How many first items have a schema of their own. -/
def firstCount (pieces : List (String × Piece)) : Nat :=
  match pieces.lookup "prefixItems" with
  | some (.schemas parts) => parts.length
  | _ => 0

/-- The constraint of a keyword whose value is a schema; some look at their neighbours. -/
def schemaConstraint? (pieces : List (String × Piece)) (keyword : String) (s : Schema) :
    Option (List Schema) :=
  match keyword with
  | "items" => some [.items (firstCount pieces) s]
  | "contains" =>
    some [.contains s ((countOf? pieces "minContains").getD 1) (countOf? pieces "maxContains")]
  | "additionalProperties" => do
    let patterns ← (fieldsOf pieces "patternProperties").mapM fun part => Pattern.ofText? part.1
    return [.additionalProperties ((fieldsOf pieces "properties").map (·.1)) patterns s]
  | "propertyNames" => some [.propertyNames s]
  | "if" => some [.branch s (partOf pieces "then") (partOf pieces "else")]
  | "not" => some [.not s]
  | _ => some []

/-- The constraint of a keyword whose value is an array of schemas, of which there is one. -/
def arrayConstraint? (keyword : String) (parts : List Schema) : Option (List Schema) :=
  if parts.isEmpty then none
  else match keyword with
    | "allOf" => some [.all parts]
    | "anyOf" => some [.anyOf parts]
    | "oneOf" => some [.oneOf parts]
    | _ => some [.firstItems parts]

/-- The constraint of a keyword whose value is an object of schemas. -/
def objectConstraint? (keyword : String) (parts : List (String × Schema)) :
    Option (List Schema) :=
  match keyword with
  | "properties" => some [.properties parts]
  | "patternProperties" => do
    let parts ← parts.mapM fun part => (Pattern.ofText? part.1).map fun p => (p, part.2)
    return [.patternProperties parts]
  | "dependentSchemas" => some [.dependentSchemas parts]
  | _ => some []

def constraint? (pieces : List (String × Piece)) (keyword : String) :
    Piece → Option (List Schema)
  | .schema s => schemaConstraint? pieces keyword s
  | .schemas parts => arrayConstraint? keyword parts
  | .fields parts => objectConstraint? keyword parts
  | .data j => dataConstraint? keyword j

def assemble? (pieces : List (String × Piece)) : Option Schema := do
  let constraints ← pieces.mapM fun (keyword, piece) => constraint? pieces keyword piece
  return .all constraints.flatten

/-! ## Documents -/

/-- A field in front of others, if all could be read. -/
def cons? {α : Type} (key : String) (first : Option α) (rest : Option (List (String × α))) :
    Option (List (String × α)) :=
  first.bind fun a => rest.map ((key, a) :: ·)

mutual

def ofJson? : Json → Option Schema
  | .bool b => some (if b then always else never)
  | .obj members => (pieces? members).bind assemble?
  | _ => none

def pieces? : List (String × Json) → Option (List (String × Piece))
  | [] => some []
  | (keyword, j) :: rest =>
    match formOf keyword, j with
    | .schema, j => cons? keyword ((ofJson? j).map .schema) (pieces? rest)
    | .array, .arr js => cons? keyword ((schemas? js).map .schemas) (pieces? rest)
    | .object, .obj members => cons? keyword ((fields? members).map .fields) (pieces? rest)
    | .data, j => cons? keyword (some (.data j)) (pieces? rest)
    | _, _ => none

def schemas? : List Json → Option (List Schema)
  | [] => some []
  | j :: rest => (ofJson? j).bind fun s => (schemas? rest).map (s :: ·)

def fields? : List (String × Json) → Option (List (String × Schema))
  | [] => some []
  | (key, j) :: rest => cons? key (ofJson? j) (fields? rest)

end

/-! ## One keyword at a time -/

theorem pieces?_schema {keyword : String} (j : Json) (rest : List (String × Json))
    (h : formOf keyword = .schema) :
    pieces? ((keyword, j) :: rest) = cons? keyword ((ofJson? j).map .schema) (pieces? rest) :=
  pieces?.eq_2 _ _ _ h

theorem pieces?_object {keyword : String} (members rest : List (String × Json))
    (h : formOf keyword = .object) :
    pieces? ((keyword, .obj members) :: rest)
      = cons? keyword ((fields? members).map .fields) (pieces? rest) :=
  pieces?.eq_4 _ _ _ h

theorem pieces?_data {keyword : String} (j : Json) (rest : List (String × Json))
    (h : formOf keyword = .data) :
    pieces? ((keyword, j) :: rest) = cons? keyword (some (.data j)) (pieces? rest) :=
  pieces?.eq_5 _ _ _ h

end Measures.Schema
