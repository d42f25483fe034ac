import Measures.Binary64.Arithmetic
import Measures.Fault

/-!
# Scalar rules

The rules for numbers alone: closeness, maximum and minimum, rounding to integers, and the
canonical representative of an angle.
-/

namespace Measures.Scalar

/-! ## Closeness -/

def relativeTolerance : Binary64 := .ofDecimal false [1] (-9)

def absoluteTolerance : Binary64 := .ofDecimal false [1] (-12)

/-- Whether two numbers differ by at most the relative tolerance of one of them or the absolute
one. Infinities are close to themselves only. -/
def closeWithin (a b relative absolute : Binary64) : Bool :=
  if a.equal b then true
  else if a.isInfinite || b.isInfinite then false
  else
    let distance := (b - a).abs
    distance.lessEq (relative * b).abs || distance.lessEq (relative * a).abs
      || distance.lessEq absolute

def isClose (a b relative absolute : Binary64) : Except Fault Bool :=
  if relative.less (.zero false) || absolute.less (.zero false) then .error .negativeTolerance
  else .ok (closeWithin a b relative absolute)

/-! ## Maximum and minimum -/

/-- The greater number, the first one if they are equal; NaN if either is. -/
def max (a b : Binary64) : Binary64 :=
  if a.isNaN || b.isNaN then .nan else if a.less b then b else a

/-- The lesser number, the first one if they are equal; NaN if either is. -/
def min (a b : Binary64) : Binary64 :=
  if a.isNaN || b.isNaN then .nan else if b.less a then b else a

/-! ## Integers -/

def half : Binary64 := .ofDecimal false [5] (-1)

/-- The nearest integer of a finite number, a half upwards. -/
def nearest? (x : Binary64) : Option Int :=
  x.floor?.map fun floor => if half.lessEq (x - .ofInt floor) then floor + 1 else floor

def roundHalfUp (x : Binary64) : Except Fault Int :=
  match nearest? x with
  | some i => .ok i
  | none => .error (if x.isNaN then .nanToInteger else .infinityToInteger)

inductive IntWidth where
  | bits32
  | bits64
  deriving DecidableEq, Repr

namespace IntWidth

def bits : IntWidth → Nat
  | bits32 => 32
  | bits64 => 64

def low (w : IntWidth) : Int := -(Nat.pow 2 (w.bits - 1) : Nat)

def high (w : IntWidth) : Int := (Nat.pow 2 (w.bits - 1) : Nat) - 1

end IntWidth

/-- A number without its fraction, at most at the ends of the range; NaN becomes 0. -/
def saturate (w : IntWidth) (x : Binary64) : Int :=
  if x.isNaN then 0
  else if !x.lessInt w.high then w.high
  else if !x.greaterInt w.low then w.low
  else x.trunc?.getD 0

/-- An integer, at most at the ends of the range. -/
def saturateInt (w : IntWidth) (i : Int) : Int :=
  if w.high ≤ i then w.high else if i ≤ w.low then w.low else i

/-! ## Angles -/

def fullTurn : Binary64 := .ofInt 360

/-- The remainder by a period, one period up if it is negative, and zero if it then is not less
than the bound that `reaches` tests. What is not finite stays as it is. -/
def wrapAt (reaches : Binary64 → Bool) (x period : Binary64) : Binary64 :=
  if !x.isFinite then x
  else
    let r := x.rem period
    let r := if r.less (.zero false) then r + period else r
    let r := if reaches r then .zero false else r
    r + .zero false

/-- The representative of `x` in `[0, period)`. -/
def wrap (x period : Binary64) : Binary64 := wrapAt period.lessEq x period

def wrapTurn (x : Binary64) : Binary64 := wrap x fullTurn
end Measures.Scalar
