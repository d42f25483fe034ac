import Mathlib.Logic.Basic
import Measures.Binary64.Arithmetic

/-!
# Laws of arithmetic

The sides of a sum or a product can be exchanged, bit for bit, and a quotient by zero is as the
signs of its two sides say.
-/

namespace Measures.Binary64

/-! ## Exchanged sides -/

theorem addFinite_comm (s : Bool) (m : Nat) (t : Bool) (n : Nat) :
    addFinite s m t n = addFinite t n s m := by
  rw [addFinite, addFinite, Int.add_comm (signed t n), Bool.and_comm t]

protected theorem add_comm (x y : Binary64) : x + y = y + x := by
  change add x y = add y x
  cases x with
  | nan => cases y <;> rfl
  | infinite s =>
    cases y with
    | infinite t =>
      by_cases h : s = t
      · subst h
        rfl
      · rw [add, add, if_neg h, if_neg (Ne.symm h)]
    | nan | finite _ _ _ => rfl
  | finite s m hm =>
    cases y with
    | finite t n hn => exact addFinite_comm s m t n
    | nan | infinite _ => rfl

protected theorem mul_comm (x y : Binary64) : x * y = y * x := by
  change mul x y = mul y x
  have hsign : (x.isNegative != y.isNegative) = (y.isNegative != x.isNegative) :=
    Bool.xor_comm x.isNegative y.isNegative
  cases x with
  | nan => cases y <;> rfl
  | infinite s =>
    cases y with
    | nan => rfl
    | infinite t =>
      simp only [mul, hsign]
      rfl
    | finite t n hn => simp only [mul, hsign]
  | finite s m hm =>
    cases y with
    | nan => rfl
    | infinite t => simp only [mul, hsign]
    | finite t n hn => simp only [mul, hsign, Nat.mul_comm m]

/-! ## Quotients by zero -/

/-- Zero and NaN have no quotient by zero, and any other number has an infinite one. -/
theorem div_of_isZero (x : Binary64) {y : Binary64} (hy : y.isZero = true) :
    x / y = if x.isZero || x.isNaN then nan else .infinite (x.isNegative != y.isNegative) := by
  cases y with
  | nan | infinite _ => cases hy
  | finite t m hm =>
    obtain rfl : m = 0 := by simpa [isZero] using hy
    change div x _ = _
    cases x with
    | nan | infinite _ => rfl
    | finite s n h =>
      rw [div, if_pos rfl]
      by_cases hn : n = 0
      · subst hn
        rfl
      · have hx : (finite s n h).isZero = false := beq_eq_false_iff_ne.2 hn
        rw [if_neg hn, hx]
        rfl

end Measures.Binary64
