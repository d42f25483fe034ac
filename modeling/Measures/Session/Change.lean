import Measures.Quantity.Algebra
import Measures.Session.Store

/-!
# Changing a quantity in place

An operation reads the receiver and its argument, checks them, and at its end writes the result to
the fields of the receiver one after the other. The receiver may be its own argument.
-/

namespace Measures

inductive Change where
  | apply (verb : Verb) (argument : Argument)
  /-- The operator form; a sum or difference then refuses what is no quantity in its own way. -/
  | operator (verb : Verb) (argument : Argument)
  | negate

namespace Session

/-- Writes the next state of a quantity; angles are reduced. -/
def commit (self : String) (value : Binary64) (unit : UnitSlot) (power : Power) :
    Action Session Unit := do
  let settled := if unit.holds .degrees then Scalar.wrapTurn value else value
  write self fun q => { q with value := settled }
  write self fun q => { q with unit := unit }
  write self fun q => { q with power := power }

def addWith (verb : Verb) (combine : Binary64 → Binary64 → Binary64) (self : String)
    (a : Argument) : Action Session Unit := do
  let q ← read self
  let r ← Quantity.otherTerm verb (← readOperand a)
  q.checkDimension r verb
  commit self (combine q.value r.value) q.unit q.power

def mod (self : String) (a : Argument) : Action Session Unit := do
  let q ← read self
  let divisor ← q.remainderDivisor (← readOperand a)
  commit self (q.value.rem divisor) q.unit q.power

def scale (f : Quantity.Factors) (self : String) (a : Argument) : Action Session Unit := do
  let q ← read self
  match ← readOperand a with
  | .quantity r =>
    let (unit, power) ← q.combineUnits f r
    let unit ← Quantity.reduceUnit unit power
    commit self (f.combine q.value r.value) unit power
  | o =>
    let x ← o.scalar
    commit self (f.combine q.value x) q.unit q.power

def negate (self : String) : Action Session Unit := do
  let q ← read self
  commit self q.value.neg q.unit q.power

def apply (verb : Verb) (self : String) (a : Argument) : Action Session Unit :=
  match verb with
  | .add => addWith .add (· + ·) self a
  | .subtract => addWith .subtract (· - ·) self a
  | .mod => mod self a
  | .multiply => scale .product self a
  | .divide => scale .quotient self a

def applyOperator (verb : Verb) (self : String) (a : Argument) : Action Session Unit := do
  let q ← read self
  let o ← readOperand a
  if verb.refuses o then throw (q.refusal verb o) else apply verb self a

def change (self : String) : Change → Action Session Unit
  | .apply verb a => apply verb self a
  | .operator verb a => applyOperator verb self a
  | .negate => negate self

end Session

end Measures
