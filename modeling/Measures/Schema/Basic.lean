import Measures.Json.Compare
import Measures.Pattern.Basic
import Measures.Schema.Violation

/-!
# Schemas

A schema is a tree of constraints, one constructor for each keyword, in the order in which the
keywords were written. `checkWith` lists every violation of a document in that order, depth first. A
constraint for values of another kind holds.
-/

namespace Measures

/-! ## Kinds of values -/

inductive JsonType where
  | null
  | boolean
  | integer
  | number
  | string
  | array
  | object
  deriving DecidableEq, Repr

namespace JsonType

def all : List JsonType := [null, boolean, integer, number, string, array, object]

def text : JsonType → String
  | null => "null"
  | boolean => "boolean"
  | integer => "integer"
  | number => "number"
  | string => "string"
  | array => "array"
  | object => "object"

def ofText? (s : String) : Option JsonType := all.find? (·.text == s)

/-- Whether a value is of a type; a float without a fraction is an integer. -/
def holds : JsonType → Json → Bool
  | null, .null => true
  | boolean, .bool _ => true
  | integer, .int _ => true
  | integer, .float x => x.toInt?.isSome
  | number, .int _ => true
  | number, .float _ => true
  | string, .str _ => true
  | array, .arr _ => true
  | object, .obj _ => true
  | _, _ => false

end JsonType

/-! ## Schemas -/

inductive Schema where
  /-- The schema `false`, which nothing satisfies. -/
  | never
  /-- All of some constraints, each with violations of its own. -/
  | all (parts : List Schema)
  | anyOf (parts : List Schema)
  | oneOf (parts : List Schema)
  | not (part : Schema)
  | branch (condition yes no : Schema)
  | type (types : List JsonType)
  | enum (values : List Json)
  | const (value : Json)
  | minimum (bound : Json.Num)
  | maximum (bound : Json.Num)
  | exclusiveMinimum (bound : Json.Num)
  | exclusiveMaximum (bound : Json.Num)
  | multipleOf (unit : Json.Num)
  | minLength (n : Nat)
  | maxLength (n : Nat)
  | pattern (p : Pattern)
  | minItems (n : Nat)
  | maxItems (n : Nat)
  | uniqueItems (demanded : Bool)
  | firstItems (parts : List Schema)
  /-- The items after the first `skip` ones. -/
  | items (skip : Nat) (part : Schema)
  | contains (part : Schema) (least : Nat) (most : Option Nat)
  | minProperties (n : Nat)
  | maxProperties (n : Nat)
  | required (names : List String)
  | properties (parts : List (String × Schema))
  | patternProperties (parts : List (Pattern × Schema))
  /-- The members without a key among `names` and without a match of `patterns`. -/
  | additionalProperties (names : List String) (patterns : List Pattern) (part : Schema)
  | propertyNames (part : Schema)
  | dependentRequired (names : List (String × List String))
  | dependentSchemas (parts : List (String × Schema))
  /-- What another schema demands. -/
  | reference (target : String)
  deriving Inhabited

namespace Schema

def always : Schema := .all []

/-! ## Single constraints -/

/-- A violation of a keyword unless a condition holds. -/
def demand (keyword : String) (holds : Bool) : List Violation :=
  if holds then [] else [.here keyword]

def onNumber (keyword : String) (holds : Json.Num → Bool) (doc : Json) : List Violation :=
  match doc.num? false with
  | some n => demand keyword (holds n)
  | none => []

def onString (keyword : String) (holds : String → Bool) : Json → List Violation
  | .str s => demand keyword (holds s)
  | _ => []

def onItems (keyword : String) (holds : List Json → Bool) : Json → List Violation
  | .arr js => demand keyword (holds js)
  | _ => []

def onMembers (keyword : String) (holds : List (String × Json) → Bool) : Json → List Violation
  | .obj members => demand keyword (holds members)
  | _ => []

/-- Whether a number is a multiple of a positive one. By an integer it is divided exactly, by a
float with rounding unless the quotient is infinite. -/
def isMultiple : (unit n : Json.Num) → Bool
  | .int u, .int i => i % u == 0
  | .int u, .float x => (x.rem (.ofInt u)).isZero
  | .float u, n =>
    let x := match n with
      | .int i => Binary64.ofInt i
      | .float x => x
    let quotient := x / u
    if quotient.isInfinite then (x.rem u).isZero else quotient.toInt?.isSome

def hasKey (members : List (String × Json)) (key : String) : Bool := (members.lookup key).isSome

def missing (keyword : String) (names : List String) (members : List (String × Json)) :
    List Violation :=
  (names.filter fun name => !hasKey members name).map fun _ => .here keyword

/-- The members that no property and no pattern of a schema speaks of. -/
def extras (names : List String) (patterns : List Pattern) (members : List (String × Json)) :
    List (String × Json) :=
  members.filter fun (key, _) => !names.contains key && !patterns.any (·.occursIn key)

/-- The violations of the items of an array, each under its index from `first` on. -/
def checkItems (check : Json → List Violation) (first : Nat) : List Json → List Violation
  | [] => []
  | j :: rest => (check j).map (.under (.index first)) ++ checkItems check (first + 1) rest

/-- The violations of the values of members, each under its key. -/
def checkMembers (check : Json → List Violation) (members : List (String × Json)) :
    List Violation :=
  members.flatMap fun (key, j) => (check j).map (.under (.key key))

/-- What `contains` says of an array in which `count` items match. -/
def checkCount (least : Nat) (most : Option Nat) (count : Nat) : List Violation :=
  if most.any (· < count) then [.here "maxContains"]
  else if least ≤ count then []
  else [.here (if count = 0 then "contains" else "minContains")]

/-! ## All violations -/

/-- For each reference the violations of the schema that it names, in any document. -/
abbrev References : Type := String → Json → List Violation

def References.none : References := fun _ _ => []

mutual

/-- The violations of a schema in a document, the references in it being given. -/
def checkWith (refs : References) : Schema → Json → List Violation
  | never, _ => [⟨[], none⟩]
  | all parts, doc => checkAll refs parts doc
  | anyOf parts, doc => demand "anyOf" (0 < countValid refs parts doc)
  | oneOf parts, doc => demand "oneOf" (countValid refs parts doc == 1)
  | not part, doc => demand "not" (!(checkWith refs part doc).isEmpty)
  | branch condition yes no, doc =>
    if (checkWith refs condition doc).isEmpty then checkWith refs yes doc
    else checkWith refs no doc
  | type types, doc => demand "type" (types.any (·.holds doc))
  | enum values, doc => demand "enum" (values.any (·.equal doc))
  | const value, doc => demand "const" (value.equal doc)
  | minimum bound, doc => onNumber "minimum" (fun n => !n.less bound) doc
  | maximum bound, doc => onNumber "maximum" (fun n => !bound.less n) doc
  | exclusiveMinimum bound, doc =>
    onNumber "exclusiveMinimum" (fun n => !(n.less bound || n.equal bound)) doc
  | exclusiveMaximum bound, doc =>
    onNumber "exclusiveMaximum" (fun n => !(bound.less n || bound.equal n)) doc
  | multipleOf unit, doc => onNumber "multipleOf" (isMultiple unit) doc
  | minLength n, doc => onString "minLength" (n ≤ ·.length) doc
  | maxLength n, doc => onString "maxLength" (·.length ≤ n) doc
  | pattern p, doc => onString "pattern" p.occursIn doc
  | minItems n, doc => onItems "minItems" (n ≤ ·.length) doc
  | maxItems n, doc => onItems "maxItems" (·.length ≤ n) doc
  | uniqueItems demanded, doc => onItems "uniqueItems" (fun js => !demanded || Json.distinct js) doc
  | firstItems parts, .arr js => checkFirst refs parts 0 js
  | items skip never, doc => onItems "items" (·.length ≤ skip) doc
  | items skip part, .arr js => checkItems (checkWith refs part) skip (js.drop skip)
  | contains part least most, .arr js =>
    checkCount least most (js.countP fun j => (checkWith refs part j).isEmpty)
  | minProperties n, doc => onMembers "minProperties" (n ≤ ·.length) doc
  | maxProperties n, doc => onMembers "maxProperties" (·.length ≤ n) doc
  | required names, .obj members => missing "required" names members
  | properties parts, .obj members => checkProperties refs parts members
  | patternProperties parts, .obj members => checkPatterns refs parts members
  | additionalProperties names patterns never, doc =>
    onMembers "additionalProperties" (fun ms => (extras names patterns ms).isEmpty) doc
  | additionalProperties names patterns part, .obj members =>
    checkMembers (checkWith refs part) (extras names patterns members)
  | propertyNames part, .obj members =>
    members.flatMap fun (key, _) => checkWith refs part (.str key)
  | dependentRequired names, .obj members =>
    names.flatMap fun (key, others) =>
      if hasKey members key then missing "dependentRequired" others members else []
  | dependentSchemas parts, .obj members => checkDependent refs parts members
  | reference target, doc => refs target doc
  | _, _ => []

def checkAll (refs : References) : List Schema → Json → List Violation
  | [], _ => []
  | part :: rest, doc => checkWith refs part doc ++ checkAll refs rest doc

def countValid (refs : References) : List Schema → Json → Nat
  | [], _ => 0
  | part :: rest, doc =>
    (if (checkWith refs part doc).isEmpty then 1 else 0) + countValid refs rest doc

/-- The violations of the first items, each of the schema at its place. -/
def checkFirst (refs : References) : List Schema → Nat → List Json → List Violation
  | part :: rest, i, j :: js =>
    (checkWith refs part j).map (.under (.index i)) ++ checkFirst refs rest (i + 1) js
  | _, _, _ => []

def checkProperties (refs : References) :
    List (String × Schema) → List (String × Json) → List Violation
  | [], _ => []
  | (key, part) :: rest, members =>
    (match members.lookup key with
      | some j => (checkWith refs part j).map (.under (.key key))
      | none => []) ++ checkProperties refs rest members

def checkPatterns (refs : References) :
    List (Pattern × Schema) → List (String × Json) → List Violation
  | [], _ => []
  | (p, part) :: rest, members =>
    checkMembers (checkWith refs part) (members.filter fun (key, _) => p.occursIn key)
      ++ checkPatterns refs rest members

/-- The violations of the whole object for each key that is there. -/
def checkDependent (refs : References) :
    List (String × Schema) → List (String × Json) → List Violation
  | [], _ => []
  | (key, part) :: rest, members =>
    (if hasKey members key then checkWith refs part (.obj members) else [])
      ++ checkDependent refs rest members

end

/-- The violations of a schema in a document; a reference constrains nothing. -/
abbrev check (s : Schema) (doc : Json) : List Violation := s.checkWith References.none doc

def accepts (s : Schema) (doc : Json) : Bool := (s.check doc).isEmpty

/-- The violation that is reported when one is asked for. -/
def firstViolation? (s : Schema) (doc : Json) : Option Violation := (s.check doc).head?

theorem accepts_iff (s : Schema) (doc : Json) : s.accepts doc ↔ s.firstViolation? doc = none := by
  simp [accepts, firstViolation?]

end Schema

end Measures
