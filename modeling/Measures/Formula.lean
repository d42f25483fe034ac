import Measures.Datum.Rule
import Measures.Quantity.Function
import Measures.Quantity.Make

/-!
# Formulas

The rules for numbers and units, applied to data of any kind. Numbers of any kind are converted;
what a rule cannot take is a fault.
-/

namespace Measures

namespace Datum

def physical (d : Datum) : Except Fault PhysicalUnit := (Operand.datum d).physical

/-- The float of the left side of a product with a float. -/
def factorLeft (d : Datum) : Except Fault Binary64 :=
  match d with
  | .text _ | .member _ | .list _ => .error .cannotRepeat
  | d => d.realOr fun type => .unsupportedOperands "*" type (Datum.float .nan).typeName

/-- The float of the left side of a quotient by a float. -/
def dividend (d : Datum) : Except Fault Binary64 :=
  d.realOr fun type => .unsupportedOperands "/" type (Datum.float .nan).typeName

end Datum

inductive Formula where
  -- numbers
  | isFinite (x : Datum)
  | isClose (a b : Datum) (relative absolute : Option Datum)
  | quotient (a b : Datum)
  | remainder (a b : Datum)
  | max (a b : Datum)
  | min (a b : Datum)
  | roundHalfUp (x : Datum)
  /-- To 64 bits unless a width is given. -/
  | toInteger (x : Datum) (width : Option Datum)
  /-- A full turn has 360 degrees unless a period is given. -/
  | normalizeAngle (x : Datum) (period : Option Datum)
  -- base units
  | baseUnit (d : Datum)
  | unitName (d : Datum)
  | isIn (group : BaseUnit → Bool) (d : Datum)
  | isUnit (u : BaseUnit) (d : Datum)
  | isFirstPower (u : BaseUnit) (d power : Datum)
  -- literal units
  | literalName (u : BaseUnit) (d : Datum)
  | baseUnitFor (d : Datum)
  | toCanonical (x unit : Datum)
  | fromCanonical (x unit : Datum)
  | percentToFactor (x : Datum)
  | factor (unit : Datum)

namespace Formula

def factorOf : Datum → Except Fault Binary64
  | .member (.physical u) => .ok u.factor
  | d => .error (.noFactor d.typeName)

def value : Formula → Except Fault Datum
  | isFinite x => x.real.map fun x => .bool x.isFinite
  | isClose a b relative absolute => do
    let a ← a.real
    let b ← b.real
    let relative ← (relative.getD (.float Scalar.relativeTolerance)).real
    let absolute ← (absolute.getD (.float Scalar.absoluteTolerance)).real
    return .bool (← Scalar.isClose a b relative absolute)
  | quotient a b => a.quotient b
  | remainder a b => (a.remainder b).map .float
  | max a b => a.max b
  | min a b => a.min b
  | roundHalfUp x => x.roundHalfUp.map .int
  | toInteger x width => do
    let width ← (width.getD (.int 64)).intWidth
    return .int (← x.toInteger width)
  | normalizeAngle x period =>
    (x.normalizeAngle (period.getD (.float Scalar.fullTurn))).map .float
  | baseUnit d => .ok (((BaseUnit.ofDatum? d).map fun u => .member (.base u)).getD .none)
  | unitName d => .ok (.text (UnitSlot.nameOf d))
  | isIn group d => (Quantity.isOneOf group d).map .bool
  | isUnit u d => .ok (.bool (Quantity.isBase u d))
  | isFirstPower u d power => .ok (.bool (Quantity.isFirstPower u d power))
  | literalName u d => .ok (.text (Quantity.literalName u d))
  | baseUnitFor d => d.physical.map fun u => .member (.base u.base)
  | toCanonical x unit => do
    let u ← unit.physical
    return .float (u.toCanonical (← x.factorLeft))
  | fromCanonical x unit => do
    let u ← unit.physical
    return .float (u.fromCanonical (← x.dividend))
  | percentToFactor x => x.dividend.map fun x => .float (Measures.percentToFactor x)
  | factor unit => (factorOf unit).map .float

end Formula

end Measures
