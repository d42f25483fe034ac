import Measures.Quantity.Make

/-!
# The algebra of quantities

Sums, differences and remainders need equal powers and the same base unit. Products and quotients
follow the base units: a number scales anything, equal physical units add or subtract their powers,
and a relative length times a length is a length. An operation gives the receiver's next state; a
session does the same in place.
-/

namespace Measures

/-- The sign of an operator that changes its left side. -/
def Verb.sign : Verb → String
  | .add => "+="
  | .subtract => "-="
  | .mod => "%="
  | .multiply => "*="
  | .divide => "/="

/-- Whether the operator form does not take an operand. -/
def Verb.refuses (verb : Verb) (o : Operand) : Bool :=
  match verb, o with
  | _, .quantity _ => false
  | .add, _ | .subtract, _ => true
  | _, _ => false

namespace Quantity

/-! ## The next state -/

/-- The quantity with a new value, base unit and power; angles are reduced. -/
def commit (q : Quantity) (value : Binary64) (unit : UnitSlot) (power : Power) : Quantity :=
  { q with
    value := if unit.holds .degrees then Scalar.wrapTurn value else value
    unit := unit
    power := power }

/-! ## Sum, difference, remainder -/

/-- Equal powers, then the same base unit. -/
def checkDimension (q r : Quantity) (verb : Verb) : Except Fault Unit :=
  if !q.power.same r.power then
    .error (.differentPowers verb q.power.datum r.power.datum)
  else if !q.unit.identical r.unit then .error (.differentUnits verb q.unitName r.unitName)
  else .ok ()

def otherTerm (verb : Verb) (o : Operand) : Except Fault Quantity :=
  match o with
  | .quantity r => .ok r
  | o => .error (.cannotCombine verb o.typeName)

def addWith (verb : Verb) (combine : Binary64 → Binary64 → Binary64) (q : Quantity)
    (o : Operand) : Except Fault Quantity := do
  let r ← otherTerm verb o
  checkDimension q r verb
  return q.commit (combine q.value r.value) q.unit q.power

def add (q : Quantity) (o : Operand) : Except Fault Quantity := addWith .add (· + ·) q o

def subtract (q : Quantity) (o : Operand) : Except Fault Quantity := addWith .subtract (· - ·) q o

/-- The value by which `q` is divided for a remainder. -/
def remainderDivisor (q : Quantity) (o : Operand) : Except Fault Binary64 :=
  match o with
  | .quantity r => do
    checkDimension q r .mod
    if ← q.unit.isIn (·.isRelativeLength) then
      .error (.relativeRemainder q.unitName r.unitName)
    return r.value
  | o => do
    let x ← o.scalar
    if !q.hasPower 0 then .error (.differentPowers .mod q.power.datum (.int 0))
    if !q.unit.holds .number then
      let relative ← q.unit.isIn (·.isRelativeLength)
      .error (.scalarRemainder q.unitName (if relative then .relativeLength else .notNumber))
    return x

/-- The remainder of division towards zero. -/
def mod (q : Quantity) (o : Operand) : Except Fault Quantity := do
  let divisor ← q.remainderDivisor o
  return q.commit (q.value.rem divisor) q.unit q.power

/-! ## Product and quotient -/

/-- The two operations on values and powers. -/
structure Factors where
  verb : Verb
  combine : Binary64 → Binary64 → Binary64
  powers : Power → Power → Except Fault Power

def Factors.product : Factors := ⟨.multiply, (· * ·), Power.plus⟩

def Factors.quotient : Factors := ⟨.divide, (· / ·), Power.minus⟩

/-- The base unit and power of a product or quotient, before a power of zero is looked at. -/
def combineUnits (f : Factors) (q r : Quantity) : Except Fault (UnitSlot × Power) := do
  if q.unit.holds .number then return (r.unit, r.power)
  if r.unit.holds .number then return (q.unit, q.power)
  if ← q.unit.isIn (·.isPhysical) then
    if ← r.unit.isIn (·.isPhysical) then
      if !q.unit.identical r.unit then
        .error (.differentFactors f.verb q.unitName r.unitName)
      return (q.unit, ← f.powers q.power r.power)
    if !q.unit.holds .millipoints then
      .error (.unitByRelative f.verb q.unitName r.unitName)
    return (q.unit, q.power)
  if r.unit.holds .millipoints then return (r.unit, r.power)
  .error (.relativeByUnit f.verb q.unitName r.unitName)

/-- A physical unit of power zero becomes a number; without a dimension there is no other power. -/
def reduceUnit (unit : UnitSlot) (power : Power) : Except Fault UnitSlot := do
  let numeric ← unit.isIn (·.isNumeric)
  let isZero := power.isInt 0
  if numeric && !isZero then .error .numericWithPower
  return if isZero && !numeric then .unit .number else unit

def scale (f : Factors) (q : Quantity) (o : Operand) : Except Fault Quantity :=
  match o with
  | .quantity r => do
    let (unit, power) ← combineUnits f q r
    let unit ← reduceUnit unit power
    return q.commit (f.combine q.value r.value) unit power
  | o => do
    let x ← o.scalar
    return q.commit (f.combine q.value x) q.unit q.power

def multiply (q : Quantity) (o : Operand) : Except Fault Quantity := scale .product q o

def divide (q : Quantity) (o : Operand) : Except Fault Quantity := scale .quotient q o

/-! ## Sign -/

def negate (q : Quantity) : Quantity := q.commit q.value.neg q.unit q.power

/-! ## By name -/

def apply (q : Quantity) (verb : Verb) (o : Operand) : Except Fault Quantity :=
  match verb with
  | .add => q.add o
  | .subtract => q.subtract o
  | .mod => q.mod o
  | .multiply => q.multiply o
  | .divide => q.divide o

/-- What the operator form fails with for an operand that it does not take. -/
def refusal (q : Quantity) (verb : Verb) (o : Operand) : Fault :=
  .unsupportedOperands verb.sign (Operand.quantity q).typeName o.typeName

def applyOperator (q : Quantity) (verb : Verb) (o : Operand) : Except Fault Quantity :=
  if verb.refuses o then .error (q.refusal verb o) else q.apply verb o

end Quantity

end Measures
