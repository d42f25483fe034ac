import Measures.Binary64.Basic

/-!
# The shortest decimal that reads back

A unit is 2⁻¹⁰⁷⁴, so `n` units are exactly `scaled n` steps of 10⁻¹⁰⁷⁴. The search goes through the
grids of powers of ten from the coarsest that can meet the number to finer ones, and tries on each
the two points next to the number. It stops at the first grid with a point that rounds to it.
-/

namespace Measures

/-- The number `coefficient · 10 ^ exponent`. -/
structure Decimal where
  coefficient : Nat
  exponent : Int
  deriving DecidableEq

namespace Binary64

/-! ## What rounds to a number -/

/-- A count of units as a count of steps of `10 ^ -fractionBits`. -/
def scaled (n : Nat) : Nat := n * Nat.pow 5 fractionBits

def gapAbove (n : Nat) : Nat := Nat.pow 2 (spacing n)

/-- The distance to the next count below that fits, half as wide below a power of two. -/
def gapBelow (n : Nat) : Nat :=
  if 0 < spacing n ∧ n = Nat.pow 2 n.log2 then Nat.pow 2 (spacing n - 1)
  else Nat.pow 2 (spacing n)

/-- Whether `d` steps of `10 ^ -fractionBits` round to `n` units; half-way ones do if `n` is
even. -/
def readsBack (n d : Nat) : Bool :=
  let lower := scaled (2 * n - gapBelow n)
  let upper := scaled (2 * n + gapAbove n)
  if n / gapAbove n % 2 = 0 then lower ≤ 2 * d && 2 * d ≤ upper
  else lower < 2 * d && 2 * d < upper

/-! ## The search -/

/-- The better of two neighbours `lo` and `lo + 1` on a grid: the nearer one, the even one if both
are as near. -/
def nearer (d step lo : Nat) : Nat :=
  let below := d - lo * step
  let above := (lo + 1) * step - d
  if below < above then lo else if above < below then lo + 1 else lo + lo % 2

/-- The point next to `n` units on the grid of `10 ^ j` that rounds to them. -/
def onGrid? (n j : Nat) : Option Nat :=
  let step := Nat.pow 10 j
  let lo := scaled n / step
  match readsBack n (lo * step), readsBack n ((lo + 1) * step) with
  | true, true => some (nearer (scaled n) step lo)
  | true, false => some lo
  | false, true => some (lo + 1)
  | false, false => none

/-- Tries the grids from `10 ^ j` down; the finest one holds the number itself. -/
def searchFrom (n : Nat) : Nat → Nat × Nat
  | 0 => (scaled n, 0)
  | j + 1 =>
    match onGrid? n (j + 1) with
    | some c => (c, j + 1)
    | none => searchFrom n j

/-- The decimal with the fewest digits that rounds to `n` units, the nearest of these. -/
def shortest (n : Nat) : Decimal :=
  let found := searchFrom n ((Nat.toDigits 10 (scaled n)).length - 1)
  ⟨found.1, (found.2 : Int) - fractionBits⟩

end Binary64

end Measures
