import Mathlib.Data.Rat.Floor
import Measures.Proofs.Binary64.Rational

/-!
# Rounding towards zero

What is left of a number without its fraction is what is left of its rational number, and numbers
are held against integers as rational numbers are.
-/

namespace Measures.Binary64

variable {x : Binary64}

/-- A rational number without its fraction. -/
def towardZero (r : ℚ) : ℤ := if r < 0 then ⌈r⌉ else ⌊r⌋

theorem towardZero_intCast (i : ℤ) : towardZero i = i := by
  simp [towardZero]

theorem towardZero_neg (r : ℚ) : towardZero (-r) = -towardZero r := by
  unfold towardZero
  rcases lt_trichotomy r 0 with h | rfl | h
  · rw [if_neg (by linarith), if_pos h, Int.floor_neg]
  · simp
  · rw [if_pos (by linarith), if_neg (by linarith), Int.ceil_neg]

theorem towardZero_le {r q : ℚ} (h : r ≤ q) : towardZero r ≤ towardZero q := by
  unfold towardZero
  split
  · split
    · exact Int.ceil_mono h
    · have hr : ⌈r⌉ ≤ 0 := Int.ceil_le.2 (by push_cast; linarith)
      have hq : 0 ≤ ⌊q⌋ := Int.floor_nonneg.2 (by linarith)
      omega
  · rw [if_neg (by linarith)]
    exact Int.floor_mono h

theorem towardZero_div (m n : ℕ) : towardZero (m / n) = (m / n : ℕ) := by
  have hnonneg : (0 : ℚ) ≤ m / n := by positivity
  rw [towardZero, if_neg (not_lt.2 hnonneg), Rat.floor_natCast_div_natCast, Int.natCast_div]

theorem towardZero_signed (s : Bool) (m n : ℕ) :
    towardZero (signed s m / n) = signed s (m / n) := by
  cases s with
  | false => exact towardZero_div m n
  | true =>
    simp only [signed_true, Int.cast_neg, Int.cast_natCast, neg_div]
    rw [towardZero_neg, towardZero_div]

/-! ## Integer parts -/

theorem trunc?_eq (hx : x.isFinite = true) : x.trunc? = some (towardZero x.toRat) := by
  obtain ⟨s, n, hn, rfl⟩ := exists_of_isFinite hx
  rw [toRat_finite, towardZero_signed]
  rfl

/-! ## Order -/

theorem lessInt_eq (hx : x.isFinite = true) (i : ℤ) : x.lessInt i = decide (x.toRat < i) := by
  obtain ⟨s, n, hn, rfl⟩ := exists_of_isFinite hx
  rw [toRat_finite, lessInt, intPlace, decide_eq_decide, div_lt_iff₀ one_pos_rat]
  norm_cast

theorem greaterInt_eq (hx : x.isFinite = true) (i : ℤ) :
    x.greaterInt i = decide ((i : ℚ) < x.toRat) := by
  obtain ⟨s, n, hn, rfl⟩ := exists_of_isFinite hx
  rw [toRat_finite, greaterInt, intPlace, decide_eq_decide, lt_div_iff₀ one_pos_rat]
  norm_cast

end Measures.Binary64
