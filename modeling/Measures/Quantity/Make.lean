import Measures.Quantity.Basic
import Measures.Scalar

/-!
# Making quantities

The constructors check in a fixed order: the property, the value where it has to be converted to a
base unit, the base unit, its power, the value. An angle is reduced to `[0, 360)`.
-/

namespace Measures

/-! ## Arguments -/

def Operand.physical (o : Operand) : Except Fault PhysicalUnit :=
  match o with
  | .datum (.member (.physical u)) => .ok u
  | o => o.refuse .notPhysical

/-- The base unit of an argument, given as itself or as its text. -/
def Operand.baseUnit (o : Operand) : Except Fault BaseUnit :=
  match o with
  | .datum d => match BaseUnit.ofDatum? d with
    | some u => .ok u
    | none => o.refuse .invalidUnit
  | o => o.refuse .invalidUnit

def Operand.power (o : Operand) : Except Fault Int :=
  match o with
  | .datum (.int p) => .ok p
  | o => o.refuse .powerNotInteger

namespace Quantity

/-! ## The constructor -/

/-- Angles are kept in `[0, 360)`. -/
def settle (u : BaseUnit) (x : Binary64) : Binary64 :=
  if u = .degrees then Scalar.wrapTurn x else x

/-- A quantity of a base unit and a power that suit each other. -/
def ofParts (property : Datum) (x : Binary64) (u : BaseUnit) (power : Int) (literal : Datum) :
    Quantity where
  property := property
  value := settle u x
  unit := .unit u
  power := .ofInt power
  madeUnit := .unit u
  literal := literal

/-- A quantity of any base unit and power; without a dimension the power has to be zero. The
property and the literal unit are kept without a look at them. -/
def make (property value unit power literal : Operand) : Except Fault Quantity := do
  let u ← unit.baseUnit
  let p ← power.power
  if u.isNumeric && p != 0 then .error (.numericPower p)
  let x ← value.toFloat
  return ofParts (← property.kept) x u p (← literal.kept)

/-! ## Constructors for one kind -/

/-- The index of a property: itself, or what `lookup` finds for a name. -/
def resolveProperty (lookup : Datum → Except Fault Nat) (property : Operand) :
    Except Fault Datum :=
  match property with
  | .datum (.int i) => .ok (.int i)
  | .datum d => match d.text? with
    | some _ => (lookup d).map fun i => .int i
    | none => property.refuse .propertyNotIndex
  | property => property.refuse .propertyNotIndex

inductive Kind where
  | number
  | percentage
  | ems
  | length
  | frequency
  | time
  | angle
  deriving DecidableEq, Repr

namespace Kind

def base : Kind → BaseUnit
  | number => .number
  | percentage => .percentage
  | ems => .ems
  | length => .millipoints
  | frequency => .hertz
  | time => .millisecs
  | angle => .degrees

/-- The unit of a physical quantity that is given without one. -/
def defaultUnit? : Kind → Option PhysicalUnit
  | number | percentage | ems => none
  | length => some (.length .pt)
  | frequency => some (.frequency .hz)
  | time => some (.time .ms)
  | angle => some (.angle .deg)

end Kind

/-- A quantity of a physical kind. The unit decides on the factor and the kind on the base unit. -/
def ofPhysical (property : Datum) (value unit : Operand) (base : BaseUnit) :
    Except Fault Quantity := do
  let x ← value.toFloat
  let u ← unit.physical
  return ofParts property (u.toCanonical x) base 1 (.member (.physical u))

/-- A quantity of a kind; `unit` is used by the physical kinds only. -/
def ofKind (kind : Kind) (property : Datum) (value : Operand) (unit : Option Operand) :
    Except Fault Quantity :=
  match kind, kind.defaultUnit? with
  | kind, some u =>
    ofPhysical property value (unit.getD (.datum (.member (.physical u)))) kind.base
  | .percentage, none => do
    let x ← value.toFloat
    return ofParts property (percentToFactor x) .percentage 0 (.text percentSign)
  | .ems, none => do
    let x ← value.toFloat
    return ofParts property x .ems 0 (.text emSign)
  | _, none => do
    let x ← value.toFloat
    return ofParts property x .number 0 .none

end Quantity

end Measures
