import Measures.Proofs.Binary64.Held

/-!
# Whole parts

A number that is not whole is small, and all small integers are numbers. So the integers on both
sides of a number are numbers themselves.
-/

namespace Measures.Binary64

variable {n : Nat} {i : Int}

/-! ## Counts of whole numbers -/

/-- From here on every number is whole. -/
def wholeBound : Nat := Nat.pow 2 52

theorem one_dvd_of_le (h : Fits n) (hn : wholeBound * one ≤ n) : one ∣ n := by
  unfold wholeBound at hn
  rw [one_eq] at hn ⊢
  exact pow_dvd_of_le (dvd_of_fits h) hn

theorem fits_whole {k : Nat} (hk : k ≤ Nat.pow 2 53) : Fits (k * one) := by
  have hlt : k * one < Nat.pow 2 (54 + fractionBits) := by
    rw [← pow_mul_one]
    exact Nat.mul_lt_mul_of_pos_right (Nat.lt_of_le_of_lt hk (by decide)) one_pos
  apply fits_of_held
  · unfold limit
    exact Nat.lt_trans hlt (pow_lt_pow (by decide))
  · rw [one_eq]
    exact held_mul_pow hk fractionBits

theorem fits_small {k : Nat} (hk : k ≤ wholeBound) : Fits (k * one) :=
  fits_whole (Nat.le_trans hk (by decide))

/-! ## Integers that are numbers -/

theorem ofInt_of_fits (h : Fits (i.natAbs * one)) :
    ofInt i = .finite (i < 0) (i.natAbs * one) h := ofRatio_of_fits _ h

theorem ofInt?_of_fits (h : Fits (i.natAbs * one)) : ofInt? i = some (ofInt i) := by
  rw [ofInt?, ofInt_of_fits h]
  rfl

theorem ofInt?_of_small (h : i.natAbs ≤ wholeBound) : ofInt? i = some (ofInt i) :=
  ofInt?_of_fits (fits_small h)

theorem ofInt?_of_whole (s : Bool) (h : Fits n) (hone : one ∣ n) :
    ofInt? (signed s (n / one)) = some (ofInt (signed s (n / one))) := by
  refine ofInt?_of_fits ?_
  rw [natAbs_signed, Nat.div_mul_cancel hone]
  exact h

/-- A whole number is the float of its integer, but for the sign of a zero. -/
theorem ofInt_of_whole (s : Bool) (h : Fits n) (hone : one ∣ n) :
    ofInt (signed s (n / one)) = .finite (signed s (n / one) < 0) n h := by
  have hn : (signed s (n / one)).natAbs * one = n := by
    rw [natAbs_signed, Nat.div_mul_cancel hone]
  have hfits : Fits ((signed s (n / one)).natAbs * one) := by
    rw [hn]
    exact h
  rw [ofInt_of_fits hfits]
  simp only [hn]

theorem sub_whole (s : Bool) (h : Fits n) (hone : one ∣ n) :
    ∃ negative, .finite s n h - ofInt (signed s (n / one)) = zero negative := by
  rw [ofInt_of_whole s h hone]
  -- Both terms have one count, and their signs differ unless it is zero.
  have hsum : signed s n + signed (!decide (signed s (n / one) < 0)) n = 0 := by
    rcases Nat.eq_zero_or_pos n with rfl | hpos
    · rw [signed_zero, signed_zero]
      rfl
    · have hdiv : 0 < n / one := Nat.div_pos (Nat.le_of_dvd hpos hone) one_pos
      rw [signed_lt_zero s hdiv, ← neg_signed_not s n, Int.add_left_neg]
  exact ⟨_, add_of_cancel hsum⟩

/-! ## Whole parts -/

theorem one_pos_int : (0 : Int) < one := Int.natCast_pos.2 one_pos

theorem floor?_finite (s : Bool) (h : Fits n) :
    (finite s n h).floor? = some (signed s n / one) :=
  congrArg some (Int.fdiv_eq_ediv_of_nonneg _ (Int.le_of_lt one_pos_int))

theorem ediv_of_whole (s : Bool) (hone : one ∣ n) : signed s n / one = signed s (n / one) := by
  have hn : signed s n = signed s (n / one) * one := by
    rw [← signed_mul, Nat.div_mul_cancel hone]
  rw [hn, Int.mul_ediv_cancel _ (Int.ne_of_gt one_pos_int)]

/-- The integer below a number that is not whole. -/
theorem ediv_bounds (s : Bool) (h : Fits n) (hone : ¬ one ∣ n) :
    -(wholeBound : Int) ≤ signed s n / one ∧ signed s n / one < wholeBound := by
  have hlt : n < wholeBound * one := Nat.lt_of_not_le fun hle => hone (one_dvd_of_le h hle)
  have habs : (n : Int) < wholeBound * one := by
    rw [← Int.natCast_mul]
    exact Int.ofNat_lt.2 hlt
  have hsigned : -(wholeBound * one : Int) ≤ signed s n ∧ signed s n < wholeBound * one := by
    cases s with
    | false => exact ⟨by simp only [signed]; omega, habs⟩
    | true => simp only [signed]; omega
  constructor
  · rw [Int.le_ediv_iff_mul_le one_pos_int, Int.neg_mul]
    exact hsigned.1
  · exact Int.ediv_lt_of_lt_mul one_pos_int hsigned.2

end Measures.Binary64
