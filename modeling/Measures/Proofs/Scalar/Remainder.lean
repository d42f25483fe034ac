import Measures.Formula
import Measures.Proofs.Binary64.TowardZero
import Measures.Proofs.Scalar.Guarded
import Measures.Proofs.Scalar.Wrap

/-!
# Exact remainders

The remainder of two finite numbers is a number, however large the quotient is. It is never rounded,
and a number that is reduced by a period has reduced remainders.
-/

namespace Measures.Scalar

open Binary64

variable {s t : Bool} {m n : Nat} {hm : Fits m} {hn : Fits n} {x y : Binary64}

/-- `z` is what is left of `x` when it is divided by `y` towards zero. -/
structure IsRemainder (x y z : Binary64) : Prop where
  finite : z.isFinite = true
  exact : z.toRat = x.toRat - y.toRat * towardZero (x.toRat / y.toRat)
  lt_divisor : |z.toRat| < |y.toRat|
  le_dividend : |z.toRat| ≤ |x.toRat|
  /-- Also of a zero. -/
  sign : z.isNegative = x.isNegative

/-! ## Finite numbers -/

theorem signed_sub_mul (s t : Bool) (m n : Nat) :
    signed s m - signed t n * signed (s != t) (m / n) = signed s (m % n) := by
  have hmod : (n : Int) * (m / n : Nat) + (m % n : Nat) = m := by
    exact_mod_cast Nat.div_add_mod m n
  cases s <;> cases t <;> simp only [signed, bne_self_eq_false, Bool.true_bne, Bool.false_bne,
    Bool.not_false, if_true, Bool.false_eq_true, if_false] <;> linarith

theorem toRat_div (s t : Bool) (hm : Fits m) (hn : Fits n) :
    (finite s m hm).toRat / (finite t n hn).toRat = signed (s != t) m / n := by
  rw [toRat_finite, toRat_finite, div_div_div_cancel_right₀ one_pos_rat.ne']
  cases s <;> cases t <;> simp [signed, div_neg, neg_div]

theorem isRemainder_finite (s t : Bool) (hm : Fits m) (hn : Fits n) (h : 0 < n) :
    IsRemainder (.finite s m hm) (.finite t n hn) (.finite s (m % n) (fits_mod hm hn h)) where
  finite := rfl
  exact := by
    rw [toRat_div, towardZero_signed, toRat_finite, toRat_finite, toRat_finite,
      ← signed_sub_mul s t]
    push_cast
    ring
  lt_divisor := by
    rw [abs_toRat, abs_toRat, div_lt_div_iff_of_pos_right one_pos_rat, Nat.cast_lt]
    exact Nat.mod_lt m h
  le_dividend := by
    rw [abs_toRat, abs_toRat, div_le_div_iff_of_pos_right one_pos_rat, Nat.cast_le]
    exact Nat.mod_le m n
  sign := rfl

theorem isRemainder_rem (hx : x.isFinite = true) (hy : y.isFinite = true)
    (h : y.isZero = false) : IsRemainder x y (x.rem y) := by
  obtain ⟨s, m, hm, rfl⟩ := exists_of_isFinite hx
  obtain ⟨t, n, hn, rfl⟩ := exists_of_isFinite hy
  have hpos : 0 < n := Nat.pos_of_ne_zero (by simpa [isZero] using h)
  rw [rem_finite s t hm hn hpos]
  exact isRemainder_finite s t hm hn hpos

/-! ## All numbers -/

theorem rem_neg (x y : Binary64) : x.rem y.neg = x.rem y := by
  cases x <;> cases y <;> rfl

theorem rem_infinite (hx : x.isFinite = true) (hy : y.isInfinite = true) : x.rem y = x := by
  obtain ⟨s, m, hm, rfl⟩ := exists_of_isFinite hx
  cases y with
  | nan | finite _ _ _ => cases hy
  | infinite t => rfl

theorem rem_eq_nan
    (h : x.isNaN = true ∨ y.isNaN = true ∨ x.isInfinite = true ∨ y.isZero = true) :
    x.rem y = .nan := by
  rcases h with h | h | h | h
  · cases x <;> first | rfl | cases h
  · cases x <;> cases y <;> first | rfl | cases h
  · cases x <;> cases y <;> first | rfl | cases h
  · exact Guarded.rem_zero x h

theorem rem_finite_cases (s : Bool) (hm : Fits m) (y : Binary64) :
    (finite s m hm).rem y = .nan ∨ ∃ k hk, k ≤ m ∧ (finite s m hm).rem y = .finite s k hk := by
  cases y with
  | nan => exact .inl rfl
  | infinite t => exact .inr ⟨m, hm, le_refl m, rfl⟩
  | finite t n hn =>
    rcases Nat.eq_zero_or_pos n with rfl | hpos
    · exact .inl rfl
    · exact .inr ⟨m % n, fits_mod hm hn hpos, Nat.mod_le m n, rem_finite s t hm hn hpos⟩

theorem rem_rem (x y : Binary64) : (x.rem y).rem y = x.rem y := by
  cases x with
  | nan | infinite _ => cases y <;> rfl
  | finite s m hm =>
    cases y with
    | nan | infinite _ => rfl
    | finite t n hn =>
      rcases Nat.eq_zero_or_pos n with rfl | hpos
      · rfl
      · rw [rem_finite s t hm hn hpos, rem_finite s t _ hn hpos]
        simp only [Nat.mod_mod]

theorem equalInt_zero (x : Binary64) : x.equalInt 0 = x.isZero := by
  cases x with
  | nan | infinite _ => rfl
  | finite s n hn =>
    have hplace : intPlace 0 = 0 := Int.zero_mul _
    rw [equalInt, isZero, hplace, Bool.beq_eq_decide_eq, Bool.beq_eq_decide_eq]
    apply decide_eq_decide.2
    unfold signed
    split <;> omega

theorem value_remainder (x y : Binary64) :
    (Formula.remainder (.float x) (.float y)).value = .ok (.float (x.rem y)) := by
  have hzero : (Datum.float y).isZero = y.isZero := equalInt_zero y
  have hvalue : (Datum.float x).remainder (.float y) = .ok (x.rem y) := by
    unfold Datum.remainder
    rw [hzero]
    cases h : y.isZero with
    | true => rw [rem_eq_nan (.inr (.inr (.inr h)))]; rfl
    | false =>
      cases x with
      | nan | infinite _ => cases y <;> rfl
      | finite s m hm => rfl
  rw [Formula.value, hvalue]
  rfl

/-! ## Angles -/

theorem IsReduced.rem (h : IsReduced (.finite false n hn) x) (y : Binary64) :
    IsReduced (.finite false n hn) (x.rem y) := by
  cases hx : x.isFinite with
  | false =>
    have hnan : x.rem y = .nan := by
      cases x with
      | nan | infinite _ => cases y <;> rfl
      | finite _ _ _ => cases hx
    rw [hnan]
    exact .inl rfl
  | true =>
    obtain ⟨m, hm, rfl, hlt⟩ := h.exists_count hx
    obtain hrem | ⟨k, hk, hle, hrem⟩ := rem_finite_cases false hm y
    · rw [hrem]
      exact .inl rfl
    · rw [hrem]
      exact isReduced_of_lt hk (Nat.lt_of_le_of_lt hle hlt)

theorem wrapTurn_rem (h : IsReduced fullTurn x) (y : Binary64) :
    wrapTurn (x.rem y) = x.rem y := by
  unfold wrapTurn
  rw [fullTurn_eq] at *
  exact wrap_of_isReduced turn_pos (h.rem y)

end Measures.Scalar
