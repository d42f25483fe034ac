import Measures.Datum.Number

/-!
# Rules for numbers of any kind

The rules for numbers, applied to data. A rule looks at its data in a fixed order and no further
than it has to; an integer stays exact until it has to become a float. On floats each rule is the
one of `Scalar`.
-/

namespace Measures.Datum

/-! ## Quotient and remainder -/

def quotientOfInts (i j : Int) : Except Fault Datum :=
  match Binary64.ofQuotient? i j with
  | some x => .ok (.float x)
  | Option.none => .error .quotientTooLarge

/-- The quotient; by a zero it is infinite or NaN. -/
def quotient (a b : Datum) : Except Fault Datum :=
  if b.isZero then do
    let x ← a.real
    let y ← b.real
    return .float (x / y)
  else combineNumbers "/" quotientOfInts (· / ·) a b

/-- The remainder of division towards zero; NaN by a zero, whatever is divided, and of what is not
finite, whatever it is divided by. -/
def remainder (a b : Datum) : Except Fault Binary64 :=
  if b.isZero then .ok .nan
  else do
    let x ← a.real
    if !x.isFinite then return .nan
    return x.rem (← b.real)

/-! ## Maximum and minimum -/

/-- The second number if it is `better` than the first one, else the first one, as it was given;
NaN as soon as one is NaN. -/
def choose (better : Datum → Datum → Bool) (a b : Datum) : Except Fault Datum := do
  if (← a.real).isNaN then return .float .nan
  if (← b.real).isNaN then return .float .nan
  return if better b a then b else a

def max (a b : Datum) : Except Fault Datum := choose (fun b a => a.less b) a b

def min (a b : Datum) : Except Fault Datum := choose less a b

theorem choose_float (better : Datum → Datum → Bool) (x y : Binary64) :
    choose better (.float x) (.float y)
      = .ok (if x.isNaN || y.isNaN then .float .nan
        else if better (.float y) (.float x) then .float y else .float x) := by
  cases hx : x.isNaN <;> cases hy : y.isNaN <;>
    simp [choose, real, realOr, bind, Except.bind, pure, Except.pure, hx, hy]

@[simp] theorem max_float (x y : Binary64) :
    max (.float x) (.float y) = .ok (.float (Scalar.max x y)) := by
  rw [max, choose_float, Scalar.max, apply_ite Datum.float, apply_ite Datum.float]
  rfl

@[simp] theorem min_float (x y : Binary64) :
    min (.float x) (.float y) = .ok (.float (Scalar.min x y)) := by
  rw [min, choose_float, Scalar.min, apply_ite Datum.float, apply_ite Datum.float]
  rfl

/-! ## Integers -/

/-- The nearest integer, a half upwards; an integer is its own. -/
def roundHalfUp (d : Datum) : Except Fault Int :=
  match d.integer? with
  | some i => .ok i
  | Option.none => d.real.bind Scalar.roundHalfUp

/-- The width of integers that a datum equals. -/
def intWidth (d : Datum) : Except Fault Scalar.IntWidth :=
  if d.same (.int 32) then .ok .bits32
  else if d.same (.int 64) then .ok .bits64
  else .error (.unsupportedWidth d.display)

/-- A number as an integer of a width; an integer is not rounded on the way. -/
def toInteger (d : Datum) (width : Scalar.IntWidth) : Except Fault Int := do
  let x ← d.real
  match d.integer? with
  | some i => return Scalar.saturateInt width i
  | Option.none => return Scalar.saturate width x

/-! ## Angles -/

/-- The representative of an angle; what is not finite stays as it is. A period that is an integer
is converted to divide and to add, but the result is held against it as it is. -/
def normalizeAngle (d period : Datum) : Except Fault Binary64 := do
  let x ← d.real
  if !x.isFinite then return x
  let p ← period.real
  if p.isZero then .error .remainderDomain
  match period.integer? with
  | some i => return Scalar.wrapAt (fun r => !r.lessInt i) x p
  | Option.none => return Scalar.wrap x p

end Measures.Datum
