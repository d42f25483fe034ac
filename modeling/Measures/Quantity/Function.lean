import Measures.Quantity.Make

/-!
# Functions of quantities

Classification, integers, and the functions that need the power zero.
-/

namespace Measures.Quantity

/-! ## Classification -/

/-- Predicates on a datum in place of a base unit. -/
def isOneOf (group : BaseUnit → Bool) (d : Datum) : Except Fault Bool :=
  (UnitSlot.find? d).map (·.any group)

/-- Whether a datum is a base unit itself and not only its text. -/
def isBase (u : BaseUnit) (d : Datum) : Bool :=
  match d with
  | .member (.base v) => v == u
  | _ => false

def isFirstPower (u : BaseUnit) (d power : Datum) : Bool := isBase u d && power.same (.int 1)

def isNumeric (q : Quantity) : Except Fault Bool := q.unit.isIn (·.isNumeric)

def isNumber (q : Quantity) : Bool := q.unit.holds .number

def isEms (q : Quantity) : Bool := q.unit.holds .ems

def isPercentage (q : Quantity) : Bool := q.unit.holds .percentage

def isDistance (q : Quantity) : Except Fault Bool := q.unit.isIn (·.isDistance)

def isLength (q : Quantity) : Bool := q.unit.holds .millipoints && q.hasPower 1

def isTime (q : Quantity) : Bool := q.unit.holds .millisecs && q.hasPower 1

def isFrequency (q : Quantity) : Bool := q.unit.holds .hertz && q.hasPower 1

def isAngle (q : Quantity) : Bool := q.unit.holds .degrees && q.hasPower 1

/-! ## Integers -/

def asLong (q : Quantity) : Int := Scalar.saturate .bits64 q.value

def asInt (q : Quantity) : Int := Scalar.saturate .bits32 q.value

/-! ## Functions of power zero -/

def requirePowerZero (q : Quantity) (function : String) : Except Fault Unit :=
  if q.hasPower 0 then .ok () else .error (.needsPowerZero function q.power.datum)

def abs (q : Quantity) : Except Fault Binary64 :=
  (q.requirePowerZero "abs").map fun _ => q.value.abs

/-- The least integer that is not below the value; what is not finite stays as it is. -/
def ceiling (q : Quantity) : Except Fault Binary64 :=
  (q.requirePowerZero "ceiling").map fun _ => (q.value.ceil?.map Binary64.ofInt).getD q.value

/-- The greatest integer that is not above the value; what is not finite stays as it is. -/
def floor (q : Quantity) : Except Fault Binary64 :=
  (q.requirePowerZero "floor").map fun _ => (q.value.floor?.map Binary64.ofInt).getD q.value

/-- The nearest integer of 64 bits, a half upwards. -/
def round (q : Quantity) : Except Fault Int :=
  (q.requirePowerZero "round").map fun _ =>
    match Scalar.nearest? q.value with
    | some i => Scalar.saturateInt .bits64 i
    | none => Scalar.saturate .bits64 q.value

def compare (function : String) (choose : Binary64 → Binary64 → Binary64) (q : Quantity)
    (o : Operand) : Except Fault Binary64 :=
  match o with
  | .quantity r =>
    if q.power.same r.power && q.hasPower 0 then .ok (choose q.value r.value)
    else .error (.comparesPowerZero function)
  | o => .error (.needsQuantity function o.typeName)

def max (q : Quantity) (o : Operand) : Except Fault Binary64 := compare "max" Scalar.max q o

def min (q : Quantity) (o : Operand) : Except Fault Binary64 := compare "min" Scalar.min q o

end Measures.Quantity
