import Measures.Property.Category
import Measures.Unit.Literal

/-!
# Data of any kind

Arguments, and the fields of a quantity that were overwritten from outside, can be data of any
kind. A member of an enumeration equals its text; a truth value equals the number 0 or 1.
-/

namespace Measures

/-- What makes operands of a sum, a difference or a remainder incompatible. -/
inductive MismatchReason where
  | power
  | baseUnit
  | relativeLength
  | notNumber
  deriving DecidableEq, Repr

namespace MismatchReason

def all : List MismatchReason := [power, baseUnit, relativeLength, notNumber]

def label : MismatchReason → String
  | power => "POWER"
  | baseUnit => "BASE_UNIT"
  | relativeLength => "RELATIVE_LENGTH"
  | notNumber => "NOT_NUMBER"

def text : MismatchReason → String
  | power => "power"
  | baseUnit => "base_unit"
  | relativeLength => "relative_length"
  | notNumber => "not_number"

end MismatchReason

/-! ## Members of enumerations -/

inductive Member where
  | base (u : BaseUnit)
  | physical (u : PhysicalUnit)
  | category (c : Category)
  | reason (r : MismatchReason)
  deriving DecidableEq, Repr

namespace Member

def enumeration : Member → String
  | base _ => "BaseUnit"
  | physical (.length _) => "LengthUnit"
  | physical (.frequency _) => "FrequencyUnit"
  | physical (.time _) => "TimeUnit"
  | physical (.angle _) => "AngleUnit"
  | category _ => "PropertyCategory"
  | reason _ => "MismatchReason"

def label : Member → String
  | base u => u.label
  | physical (.length u) => u.label
  | physical (.frequency u) => u.label
  | physical (.time u) => u.label
  | physical (.angle u) => u.label
  | category c => c.text
  | reason r => r.label

def text : Member → String
  | base u => u.text
  | physical u => u.text
  | category c => c.text
  | reason r => r.text

def qualifiedName (m : Member) : String := m.enumeration ++ "." ++ m.label

def all : List Member :=
  BaseUnit.all.map base
    ++ LengthUnit.all.map (physical ∘ .length) ++ FrequencyUnit.all.map (physical ∘ .frequency)
    ++ TimeUnit.all.map (physical ∘ .time) ++ AngleUnit.all.map (physical ∘ .angle)
    ++ Category.all.map category ++ MismatchReason.all.map reason

def find? (qualifiedName : String) : Option Member := all.find? (·.qualifiedName == qualifiedName)

end Member

/-! ## Data -/

inductive Datum where
  | none
  | bool (b : Bool)
  | int (i : Int)
  | float (x : Binary64)
  | text (s : String)
  | member (m : Member)
  | list (items : List Datum)
  deriving Inhabited

namespace Datum

/-- The text of a text or of a member. -/
def text? : Datum → Option String
  | .text s => some s
  | .member m => some m.text
  | _ => Option.none

/-- The integer of an integer or of a truth value. -/
def integer? : Datum → Option Int
  | .bool b => some (if b then 1 else 0)
  | .int i => some i
  | _ => Option.none

def typeName : Datum → String
  | .none => "NoneType"
  | .bool _ => "bool"
  | .int _ => "int"
  | .float _ => "float"
  | .text _ => "str"
  | .member m => m.enumeration
  | .list _ => "list"

def isNumber : Datum → Bool
  | .bool _ | .int _ | .float _ => true
  | _ => false

/-! ## Numbers in order -/

/-- Equality of numbers, exact between integers and floats. -/
def sameNumber : Datum → Datum → Bool
  | .float x, .float y => x.equal y
  | .float x, d | d, .float x => d.integer?.any x.equalInt
  | d, e => match d.integer?, e.integer? with
    | some i, some j => i == j
    | _, _ => false

/-- The order of numbers, exact between integers and floats. -/
def less : Datum → Datum → Bool
  | .float x, .float y => x.less y
  | .float x, e => e.integer?.any x.lessInt
  | d, .float y => d.integer?.any y.greaterInt
  | d, e => match d.integer?, e.integer? with
    | some i, some j => i < j
    | _, _ => false

def isZero (d : Datum) : Bool := d.sameNumber (.int 0)

/-! ## Equality -/

mutual

/-- Equality of data that came from different places: a NaN differs from any other one. -/
def same : Datum → Datum → Bool
  | .none, .none => true
  | .list xs, .list ys => sameItems xs ys
  | d, e => match d.text?, e.text? with
    | some s, some t => s == t
    | _, _ => sameNumber d e

def sameItems : List Datum → List Datum → Bool
  | [], [] => true
  | x :: xs, y :: ys => same x y && sameItems xs ys
  | _, _ => false

end

@[simp] theorem same_int (i j : Int) : same (.int i) (.int j) = (i == j) := by
  simp [same, text?, sameNumber, integer?]

end Datum

end Measures
