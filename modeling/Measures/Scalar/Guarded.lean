import Measures.Scalar

/-!
# Rules with guards

The arithmetic underneath does not go on with an infinity or a NaN everywhere: a quotient by zero, a
remainder without a value and the conversion of a number that is no integer trap. So each rule looks
at its numbers before it uses one of these.
-/

namespace Measures

inductive Trap where
  | zeroDivision
  | domain
  | overflow
  deriving DecidableEq, Repr

/-! ## Operations that trap -/

namespace Machine

def quotient (x y : Binary64) : Except Trap Binary64 :=
  if y.isZero then .error .zeroDivision else .ok (x / y)

/-- A NaN may only come of a NaN. -/
def remainder (x y : Binary64) : Except Trap Binary64 :=
  if (x.rem y).isNaN && !x.isNaN && !y.isNaN then .error .domain else .ok (x.rem y)

/-- The integer that `part?` takes a number for. -/
def toInt (part? : Binary64 → Option Int) (x : Binary64) : Except Trap Int :=
  (part? x).elim (.error (if x.isNaN then .domain else .overflow)) .ok

def toFloat (i : Int) : Except Trap Binary64 := (Binary64.ofInt? i).elim (.error .overflow) .ok

end Machine

/-! ## Rules -/

namespace Scalar.Guarded

def quotient (x y : Binary64) : Except Trap Binary64 :=
  if !y.equal (.zero false) then Machine.quotient x y
  else if x.equal (.zero false) || x.isNaN then .ok .nan
  else .ok (.infinite (x.isNegative != y.isNegative))

def remainder (x y : Binary64) : Except Trap Binary64 :=
  if y.equal (.zero false) || x.isInfinite || x.isNaN || y.isNaN then .ok .nan
  else Machine.remainder x y

def saturate (w : IntWidth) (x : Binary64) : Except Trap Int :=
  if x.isNaN then .ok 0
  else if !x.lessInt w.high then .ok w.high
  else if !x.greaterInt w.low then .ok w.low
  else Machine.toInt Binary64.trunc? x

/-- An integer is converted to see whether it is a NaN. -/
def saturateInt (w : IntWidth) (i : Int) : Except Trap Int := do
  let x ← Machine.toFloat i
  return if x.isNaN then 0 else Scalar.saturateInt w i

def roundHalfUp (x : Binary64) : Except Trap Int := do
  let floor ← Machine.toInt Binary64.floor? x
  let whole ← Machine.toFloat floor
  return if half.lessEq (x - whole) then floor + 1 else floor

def round (x : Binary64) : Except Trap Int :=
  if !x.isFinite then saturate .bits64 x
  else do saturateInt .bits64 (← roundHalfUp x)

/-- A whole part as a number; what is not finite stays as it is. -/
def wholePart (part? : Binary64 → Option Int) (x : Binary64) : Except Trap Binary64 :=
  if !x.isFinite then .ok x else do Machine.toFloat (← Machine.toInt part? x)

def ceiling (x : Binary64) : Except Trap Binary64 := wholePart Binary64.ceil? x

def floor (x : Binary64) : Except Trap Binary64 := wholePart Binary64.floor? x

def wrap (x period : Binary64) : Except Trap Binary64 :=
  if !x.isFinite then .ok x
  else do
    let r ← Machine.remainder x period
    let r := if r.less (.zero false) then r + period else r
    let r := if period.lessEq r then .zero false else r
    return r + .zero false

def wrapTurn (x : Binary64) : Except Trap Binary64 := wrap x fullTurn

end Scalar.Guarded

end Measures
