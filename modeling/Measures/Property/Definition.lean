import Measures.Fault
import Measures.Property.CategorySet
import Measures.Property.Item
import Measures.Property.Name
import Measures.Text.Blank
import Measures.Text.Digit
import Measures.Text.Surrogate

/-!
# Definitions of properties

A definition is built from fields of any form. A field is converted where that loses nothing: an
index may be a truth value, a float without a fraction or a text of digits. All that is wrong is
reported, in the order index, name, categories, description. Other fields are not looked at.
-/

namespace Measures

structure Definition where
  index : Nat
  name : String
  categories : CategorySet
  description : Option String
  name_form : Property.strictNameForm.occursIn name = true
  categories_ne : categories.isEmpty = false
  deriving DecidableEq

namespace Definition

/-! ## The index -/

/-- Characters without the zeros in front and the underscores among them; where there is nothing
else the last one is left. -/
def dropZeros : List Char → List Char
  | '0' :: rest =>
    match rest.dropWhile fun c => c == '0' || c == '_' with
    | [] => [rest.getLast?.getD '0']
    | more => more
  | cs => cs

/-- The digits of a whole number. Single underscores may stand between them, and zeros in front only
of a number without a minus. -/
def wholeDigits? (negative : Bool) (cs : List Char) : Option (List Nat) := do
  match Text.spanDigits (← Text.joinGroups (if negative then cs else dropZeros cs)) with
  | ([d], []) => some [d]
  | (d :: digits, []) => if d = 0 then none else some (d :: digits)
  | _ => none

/-- Whether what begins with the point of a number is a point and zeros; it may be missing. -/
def isZeroFraction : List Char → Bool
  | [] => true
  | _ :: zeros => !zeros.isEmpty && zeros.all (· == '0')

/-- A text of an integer: a sign, a whole number, and a fraction of zeros, with blanks around. -/
def integerText? (s : String) : Option (Bool × List Nat) := do
  let (negative, rest) := Text.splitSign (Text.trimBlanks s.toList)
  if !isZeroFraction (rest.dropWhile (· != '.')) then none
  let digits ← wholeDigits? negative (rest.takeWhile (· != '.'))
  return (negative, digits)

def maxDigits : Nat := 4300

/-- Floats from here on are too large to convert. -/
def floatBound : Int := (Nat.pow 2 63 : Nat)

def integerOf (j : Json) : Except IssueKind Int :=
  match j with
  | .bool b => .ok (if b then 1 else 0)
  | .int i => .ok i
  | .float x => match x.toInt? with
    | some i => if -floatBound < i ∧ i < floatBound then .ok i else .error .intParsingSize
    | none => .error (if x.isFinite then .intFromFloat else .finiteNumber)
  | .str s => if Text.hasSurrogate s then .error .stringUnicode else match integerText? s with
    | some (negative, digits) =>
      if maxDigits < digits.length then .error .intParsingSize
      else .ok (Binary64.signed negative (Text.ofDigits digits))
    | none => .error .intParsing
  | _ => .error .intType

def readIndex (j : Json) : Except IssueKind Nat :=
  match integerOf j with
  | .ok i => if 0 ≤ i then .ok i.toNat else .error .greaterThanEqual
  | .error kind => .error kind

/-! ## The other fields -/

abbrev Name := { s : String // Property.strictNameForm.occursIn s = true }

def readName (j : Json) : Except IssueKind Name :=
  match j with
  | .str s =>
    if Text.hasSurrogate s then .error .stringUnicode
    else if s = "" then .error .stringTooShort
    else if h : Property.strictNameForm.occursIn s = true then .ok ⟨s, h⟩
    else .error .stringPatternMismatch
  | _ => .error .stringType

abbrev Categories := { s : CategorySet // s.isEmpty = false }

def category? : Json → Option Category
  | .str s => Category.ofText? s
  | _ => none

/-- An issue for each item that is no category, from the item `i` on. -/
def categoryIssues : Nat → List Json → List Issue
  | _, [] => []
  | i, j :: rest =>
    (if (category? j).isSome then [] else [⟨[.key "categories", .index i], .enum⟩])
      ++ categoryIssues (i + 1) rest

def readCategories (j : Json) : Except (List Issue) Categories :=
  match j with
  | .arr items =>
    let issues := categoryIssues 0 items
    let found := CategorySet.ofList (items.filterMap category?)
    if !issues.isEmpty then .error issues
    else if h : found.isEmpty = false then .ok ⟨found, h⟩
    else .error [⟨[.key "categories"], .emptyCategories⟩]
  | _ => .error [⟨[.key "categories"], .setType⟩]

def readDescription : Option Json → Except IssueKind (Option String)
  | none | some .null => .ok none
  | some (.str s) => .ok (some s)
  | some _ => .error .stringType

/-! ## All fields -/

def atKey {α : Type} (key : String) (read : Except IssueKind α) : Except (List Issue) α :=
  read.mapError fun kind => [⟨[.key key], kind⟩]

def needed {α : Type} (fields : List (String × Json)) (key : String)
    (read : Json → Except (List Issue) α) : Except (List Issue) α :=
  match fields.lookup key with
  | none => .error [⟨[.key key], .missing⟩]
  | some j => read j

def issuesOf {α : Type} : Except (List Issue) α → List Issue
  | .ok _ => []
  | .error issues => issues

/-- A definition, or all that is wrong with its fields. -/
def read (fields : List (String × Json)) : Except (List Issue) Definition :=
  let index := needed fields "index" fun j => atKey "index" (readIndex j)
  let name := needed fields "name" fun j => atKey "name" (readName j)
  let categories := needed fields "categories" readCategories
  let description := atKey "description" (readDescription (fields.lookup "description"))
  match index, name, categories, description with
  | .ok i, .ok n, .ok cs, .ok d => .ok ⟨i, n.1, cs.1, d, n.2, cs.2⟩
  | index, name, categories, description =>
    .error (issuesOf index ++ issuesOf name ++ issuesOf categories ++ issuesOf description)

/-- A definition from fields, with all issues as one cause of failure. -/
def ofFields (fields : List (String × Json)) : Except Fault Definition :=
  (read fields).mapError .definition

/-! ## The way back -/

def toJson (d : Definition) : Json :=
  Property.itemJson d.index d.name d.categories.toList d.description

end Definition

end Measures
