import Measures.Binary64.Basic

/-!
# Arithmetic and order

Every operation is total. A result that no rule of its own fixes (an infinity less itself, zero
times an infinity, the remainder by zero) is NaN.
-/

namespace Measures.Binary64

/-! ## Order -/

/-- Less, as the places on the number line are; a NaN is not comparable and both zeros are equal. -/
def less (x y : Binary64) : Bool :=
  match x.place?, y.place? with
  | some a, some b => a < b
  | _, _ => false

def lessEq (x y : Binary64) : Bool :=
  match x.place?, y.place? with
  | some a, some b => a ≤ b
  | _, _ => false

/-- Equality of numbers: a NaN differs from itself, and the zeros are equal. -/
def equal (x y : Binary64) : Bool :=
  match x.place?, y.place? with
  | some a, some b => a == b
  | _, _ => false

/-! ## Sign -/

def neg : Binary64 → Binary64
  | .nan => .nan
  | .infinite s => .infinite !s
  | .finite s n h => .finite (!s) n h

def abs : Binary64 → Binary64
  | .nan => .nan
  | .infinite _ => .infinite false
  | .finite _ n h => .finite false n h

/-! ## Sum and difference -/

/-- The sum of finite numbers; an exact zero is negative only if both terms are. -/
def addFinite (s : Bool) (m : Nat) (t : Bool) (n : Nat) : Binary64 :=
  let sum := signed s m + signed t n
  if sum = 0 then zero (s && t) else ofRatio (sum < 0) sum.natAbs 1

def add : Binary64 → Binary64 → Binary64
  | .nan, _ | _, .nan => .nan
  | .infinite s, .infinite t => if s = t then .infinite s else .nan
  | .infinite s, .finite .. | .finite .., .infinite s => .infinite s
  | .finite s m _, .finite t n _ => addFinite s m t n

def sub (x y : Binary64) : Binary64 := add x y.neg

/-! ## Product, quotient, remainder -/

def mul (x y : Binary64) : Binary64 :=
  let negative := x.isNegative != y.isNegative
  match x, y with
  | .nan, _ | _, .nan => .nan
  | .infinite _, z | z, .infinite _ => if z.isZero then .nan else .infinite negative
  | .finite _ m _, .finite _ n _ => ofRatio negative (m * n) one

/-- The quotient; a nonzero number over zero is infinite. -/
def div (x y : Binary64) : Binary64 :=
  let negative := x.isNegative != y.isNegative
  match x, y with
  | .nan, _ | _, .nan => .nan
  | .infinite _, .infinite _ => .nan
  | .infinite _, .finite .. => .infinite negative
  | .finite .., .infinite _ => zero negative
  | .finite _ m _, .finite _ n _ =>
    if n = 0 then if m = 0 then .nan else .infinite negative
    else ofRatio negative (m * one) n

/-- The remainder of division towards zero, exact and with the sign of the dividend. -/
def rem : Binary64 → Binary64 → Binary64
  | .nan, _ | _, .nan => .nan
  | .infinite _, _ => .nan
  | .finite s m h, .infinite _ => .finite s m h
  | .finite s m _, .finite _ n _ => if n = 0 then .nan else ofRatio s (m % n) 1

instance : Neg Binary64 := ⟨neg⟩
instance : Add Binary64 := ⟨add⟩
instance : Sub Binary64 := ⟨sub⟩
instance : Mul Binary64 := ⟨mul⟩
instance : Div Binary64 := ⟨div⟩

/-! ## Integers -/

def ofInt (i : Int) : Binary64 := ofRatio (i < 0) (i.natAbs * one) 1

def ofInt? (i : Int) : Option Binary64 :=
  if (ofInt i).isFinite then some (ofInt i) else none

/-- The number nearest to the quotient of two integers, if that is finite. The divisor must not be
zero. -/
def ofQuotient? (i j : Int) : Option Binary64 :=
  let x := ofRatio ((i < 0) != (j < 0)) (i.natAbs * one) j.natAbs
  if x.isFinite then some x else none

def floor? : Binary64 → Option Int
  | .finite s n _ => some ((signed s n).fdiv one)
  | _ => none

def ceil? : Binary64 → Option Int
  | .finite s n _ => some (-(signed (!s) n).fdiv one)
  | _ => none

def trunc? : Binary64 → Option Int
  | .finite s n _ => some (signed s (n / one))
  | _ => none

def toInt? : Binary64 → Option Int
  | .finite s n _ => if n % one = 0 then some (signed s (n / one)) else none
  | _ => none

/-! ## Order against integers -/

def intPlace (i : Int) : Int := i * one

/-- Whether a number is an integer's equal, without rounding the integer. -/
def equalInt (x : Binary64) (i : Int) : Bool :=
  match x with
  | .finite s n _ => signed s n == intPlace i
  | _ => false

def lessInt (x : Binary64) (i : Int) : Bool :=
  match x with
  | .nan => false
  | .infinite s => s
  | .finite s n _ => signed s n < intPlace i

def greaterInt (x : Binary64) (i : Int) : Bool :=
  match x with
  | .nan => false
  | .infinite s => !s
  | .finite s n _ => intPlace i < signed s n

end Measures.Binary64
