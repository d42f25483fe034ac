/-!
# Binary floating point of 64 bits

A finite number is a sign and a count of units of 2⁻¹⁰⁷⁴, the least positive value. Every finite
number is then an exact `Nat`, and each operation is one exact computation followed by one
rounding, `roundUnits`. There is one NaN.
-/

namespace Measures

namespace Binary64

/-! ## Counts of units -/

/-- Counts of the size of `n` are held to a multiple of `2 ^ spacing n`: 53 bits are kept. -/
def spacing (n : Nat) : Nat := n.log2 - 52

/-- A unit is `2 ^ -fractionBits`. -/
def fractionBits : Nat := 1074

/-- Counts have at most this many bits. -/
def rangeBits : Nat := 2098

/-- The count of units in 1. -/
def one : Nat := Nat.pow 2 fractionBits

/-- The least power of two that is too large to hold. -/
def limit : Nat := Nat.pow 2 rangeBits

theorem powTwo_pos (k : Nat) : 0 < Nat.pow 2 k := Nat.two_pow_pos k

theorem one_pos : 0 < one := by
  unfold one
  exact powTwo_pos fractionBits

theorem limit_pos : 0 < limit := by
  unfold limit
  exact powTwo_pos rangeBits

def Fits (n : Nat) : Prop := n < limit ∧ n % Nat.pow 2 (spacing n) = 0

instance (n : Nat) : Decidable (Fits n) := inferInstanceAs (Decidable (_ ∧ _))

theorem fits_zero : Fits 0 := ⟨limit_pos, Nat.zero_mod _⟩

end Binary64

inductive Binary64 where
  | nan
  | infinite (negative : Bool)
  | finite (negative : Bool) (units : Nat) (fits : Binary64.Fits units)
  deriving DecidableEq

namespace Binary64

/-! ## Rounding -/

/-- The integer nearest to `num / den`; a half goes to the even neighbour. -/
def divEven (num den : Nat) : Nat :=
  if 2 * (num % den) < den then num / den
  else if den < 2 * (num % den) then num / den + 1
  else num / den + num / den % 2

/-- The count nearest to `num / den` among those with 53 bits, without an upper limit. -/
def roundUnits (num den : Nat) : Nat :=
  let step := Nat.pow 2 (spacing (num / den))
  divEven num (den * step) * step

/-- A count beyond the limit becomes infinite. -/
def ofUnits (negative : Bool) (n : Nat) : Binary64 :=
  if h : Fits n then .finite negative n h else .infinite negative

def ofRatio (negative : Bool) (num den : Nat) : Binary64 :=
  ofUnits negative (roundUnits num den)

theorem ofUnits_of_fits (negative : Bool) {n : Nat} (h : Fits n) :
    ofUnits negative n = .finite negative n h := by
  simp [ofUnits, h]

def zero (negative : Bool) : Binary64 := .finite negative 0 fits_zero

instance : Inhabited Binary64 := ⟨zero false⟩

/-! ## Parts -/

def isNaN : Binary64 → Bool
  | .nan => true
  | _ => false

def isFinite : Binary64 → Bool
  | .finite .. => true
  | _ => false

def isInfinite : Binary64 → Bool
  | .infinite _ => true
  | _ => false

/-- The sign, also of a zero; a NaN counts as positive. -/
def isNegative : Binary64 → Bool
  | .nan => false
  | .infinite s | .finite s .. => s

def isZero : Binary64 → Bool
  | .finite _ n _ => n == 0
  | _ => false

def signed (negative : Bool) (n : Nat) : Int := if negative then -(n : Int) else n

/-- The place on the number line in units, the infinities at the limit. -/
def place? : Binary64 → Option Int
  | .nan => none
  | .infinite s => some (signed s limit)
  | .finite s n _ => some (signed s n)

/-! ## Words -/

/-- The bit above the fraction of a word, which is not written. -/
def implicitBit : Nat := Nat.pow 2 52

/-- The number with the given 64-bit word; only the lowest 64 bits count. -/
def ofBits (word : Nat) : Binary64 :=
  let negative := word / Nat.pow 2 63 % 2 == 1
  let exponent := word / implicitBit % Nat.pow 2 11
  let fraction := word % implicitBit
  if exponent = 2047 then if fraction = 0 then .infinite negative else .nan
  else if exponent = 0 then ofUnits negative fraction
  else ofUnits negative ((implicitBit + fraction) * Nat.pow 2 (exponent - 1))

def magnitudeBits : Binary64 → Nat
  | .nan => 0x7ff8000000000000
  | .infinite _ => 0x7ff0000000000000
  | .finite _ n _ =>
    if n < implicitBit then n
    else (spacing n + 1) * implicitBit + (n / Nat.pow 2 (spacing n) - implicitBit)

def toBits (x : Binary64) : Nat :=
  (if x.isNegative then Nat.pow 2 63 else 0) + x.magnitudeBits

end Binary64

end Measures
