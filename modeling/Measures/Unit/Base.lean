/-!
# Base units

Every quantity is stored in one of seven base units. A unit is dimensionless or physical; of the
dimensionless ones the percentage and the em stand for a length that is not known yet.
-/

namespace Measures

inductive BaseUnit where
  | number
  | percentage
  | ems
  | millipoints
  | hertz
  | millisecs
  | degrees
  deriving DecidableEq, Repr

namespace BaseUnit

def all : List BaseUnit := [number, percentage, ems, millipoints, hertz, millisecs, degrees]

theorem mem_all (u : BaseUnit) : u ∈ all := by cases u <;> decide

/-! ## Names -/

def label : BaseUnit → String
  | number => "NUMBER"
  | percentage => "PERCENTAGE"
  | ems => "EMS"
  | millipoints => "MILLIPOINTS"
  | hertz => "HERTZ"
  | millisecs => "MILLISECS"
  | degrees => "DEGREES"

def text : BaseUnit → String
  | number => "number"
  | percentage => "percentage"
  | ems => "ems"
  | millipoints => "millipoints"
  | hertz => "hertz"
  | millisecs => "millisecs"
  | degrees => "degrees"

/-- The name in messages and in the text of a quantity. -/
def displayName : BaseUnit → String
  | number => "numeric"
  | percentage => "percentage"
  | ems => "ems"
  | millipoints => "millipoints"
  | hertz => "Hertz"
  | millisecs => "milliseconds"
  | degrees => "degrees"

def ofText? (s : String) : Option BaseUnit := all.find? (·.text == s)

@[simp] theorem ofText?_text (u : BaseUnit) : ofText? u.text = some u := by
  cases u <;> decide

/-! ## Groups -/

/-- Without a dimension: the power is always zero. -/
def isNumeric : BaseUnit → Bool
  | number | percentage | ems => true
  | _ => false

/-- A factor that becomes a length when a length is multiplied by it. -/
def isRelativeLength : BaseUnit → Bool
  | percentage | ems => true
  | _ => false

/-- A length, a frequency, a time or an angle. -/
def isPhysical : BaseUnit → Bool
  | millipoints | hertz | millisecs | degrees => true
  | _ => false

def isNotLength : BaseUnit → Bool
  | hertz | millisecs | degrees => true
  | _ => false

def isAbsolute : BaseUnit → Bool
  | number => true
  | u => u.isPhysical

def isNotNumber (u : BaseUnit) : Bool := u.isPhysical || u.isRelativeLength

/-- A length, absolute or relative. -/
def isDistance : BaseUnit → Bool
  | millipoints => true
  | u => u.isRelativeLength

theorem isNumeric_eq_not_isPhysical (u : BaseUnit) : u.isNumeric = !u.isPhysical := by
  cases u <;> rfl

theorem isNumeric_iff (u : BaseUnit) : u.isNumeric ↔ u = number ∨ u.isRelativeLength := by
  cases u <;> decide

theorem isPhysical_iff (u : BaseUnit) : u.isPhysical ↔ u = millipoints ∨ u.isNotLength := by
  cases u <;> decide

theorem not_isPhysical_of_isRelativeLength {u : BaseUnit} (h : u.isRelativeLength) :
    ¬ u.isPhysical := by
  cases u <;> simp_all [isRelativeLength, isPhysical]

theorem isPhysical_of_isNotLength {u : BaseUnit} (h : u.isNotLength) : u.isPhysical :=
  u.isPhysical_iff.2 (.inr h)

end BaseUnit

end Measures
