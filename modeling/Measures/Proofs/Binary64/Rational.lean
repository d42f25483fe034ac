import Mathlib.Algebra.Order.Field.Basic
import Mathlib.Algebra.Order.Field.Rat
import Mathlib.Tactic.FieldSimp
import Mathlib.Tactic.Linarith
import Measures.Proofs.Binary64.Rounding

/-!
# Numbers as rational numbers

Every finite number is a rational number, and rounding takes a positive rational number to the
nearest of them.
-/

namespace Measures.Binary64

variable {x y z : Binary64} {s t : Bool} {m n num den : Nat} {hm : Fits m} {hn : Fits n}

/-- What is not finite counts as zero. -/
def toRat : Binary64 → ℚ
  | .finite s n _ => signed s n / one
  | _ => 0

theorem one_pos_rat : (0 : ℚ) < one := Nat.cast_pos.2 one_pos

theorem toRat_finite (s : Bool) (hn : Fits n) : (finite s n hn).toRat = signed s n / one := rfl

theorem toRat_positive (hn : Fits n) : (finite false n hn).toRat = n / one := by
  rw [toRat_finite, signed_false, Int.cast_natCast]

theorem toRat_negative (hn : Fits n) : (finite true n hn).toRat = -(n / one) := by
  rw [toRat_finite, signed_true, Int.cast_neg, Int.cast_natCast, neg_div]

theorem toRat_zero (negative : Bool) : (zero negative).toRat = 0 := by
  rw [zero, toRat_finite, signed_zero, Int.cast_zero, zero_div]

theorem abs_toRat (s : Bool) (hn : Fits n) : |(finite s n hn).toRat| = n / one := by
  have h : (0 : ℚ) ≤ n / one := div_nonneg (Nat.cast_nonneg n) one_pos_rat.le
  cases s with
  | false => rw [toRat_positive, abs_of_nonneg h]
  | true => rw [toRat_negative, abs_neg, abs_of_nonneg h]

/-! ## Order -/

theorem toRat_inj : (finite s m hm).toRat = (finite t n hn).toRat ↔ signed s m = signed t n := by
  rw [toRat_finite, toRat_finite, div_left_inj' one_pos_rat.ne', Int.cast_inj]

theorem toRat_pos_iff : 0 < (finite s n hn).toRat ↔ s = false ∧ 0 < n := by
  rw [toRat_finite, div_pos_iff_of_pos_right one_pos_rat, Int.cast_pos]
  cases s with
  | false => simp [signed_false]
  | true => simp [signed_true]

theorem exists_of_toRat_pos (h : 0 < x.toRat) : ∃ n hn, x = finite false n hn ∧ 0 < n := by
  cases x with
  | nan | infinite _ => exact absurd h (lt_irrefl 0)
  | finite s n hn =>
    obtain ⟨rfl, hpos⟩ := toRat_pos_iff.1 h
    exact ⟨n, hn, rfl, hpos⟩

theorem toRat_neg_iff : (finite s n hn).toRat < 0 ↔ s = true ∧ 0 < n := by
  rw [toRat_finite, div_lt_iff₀ one_pos_rat, zero_mul, Int.cast_lt_zero]
  cases s with
  | false => simp [signed_false]
  | true => simp [signed_true]

/-! ## Exact sums -/

theorem toRat_neg (x : Binary64) : x.neg.toRat = -x.toRat := by
  cases x with
  | nan | infinite _ => exact neg_zero.symm
  | finite s n hn =>
    change (finite (!s) n hn).toRat = _
    rw [toRat_finite, toRat_finite, ← neg_signed_not s n, Int.cast_neg, neg_div, neg_neg]

theorem equal_of_toRat (hx : x.isFinite = true) (hy : y.isFinite = true)
    (h : x.toRat = y.toRat) : x.equal y = true := by
  obtain ⟨s, m, hm, rfl⟩ := exists_of_isFinite hx
  obtain ⟨t, n, hn, rfl⟩ := exists_of_isFinite hy
  exact beq_iff_eq.2 (toRat_inj.1 h)

/-- A sum that is a number is this number, up to the sign of a zero. -/
theorem toRat_add (hx : x.isFinite = true) (hy : y.isFinite = true) (hz : z.isFinite = true)
    (h : z.toRat = x.toRat + y.toRat) : (x + y).isFinite = true ∧ (x + y).toRat = z.toRat := by
  obtain ⟨s, m, hm, rfl⟩ := exists_of_isFinite hx
  obtain ⟨t, n, hn, rfl⟩ := exists_of_isFinite hy
  obtain ⟨u, k, hk, rfl⟩ := exists_of_isFinite hz
  have hsum : signed s m + signed t n = signed u k := by
    rw [toRat_finite, toRat_finite, toRat_finite, ← add_div, div_left_inj' one_pos_rat.ne',
      ← Int.cast_add, Int.cast_inj] at h
    exact h.symm
  rcases Nat.eq_zero_or_pos k with rfl | hpos
  · rw [signed_zero] at hsum
    rw [add_of_cancel hsum, toRat_zero, toRat_finite, signed_zero, Int.cast_zero, zero_div]
    exact ⟨rfl, rfl⟩
  · rw [add_of_fits hk hsum hpos]
    exact ⟨rfl, rfl⟩

theorem neg_add_self (hx : x.isFinite = true) : x.neg + x = zero false := by
  obtain ⟨s, n, hn, rfl⟩ := exists_of_isFinite hx
  have hsum : signed (!s) n + signed s n = 0 := by
    rw [← neg_signed_not s n, Int.add_right_neg]
  change finite (!s) n hn + finite s n hn = _
  rw [add_of_cancel hsum, Bool.not_and_self]

/-- What is added is taken away again if the sum is a number. -/
theorem add_sub_equal (hx : x.isFinite = true) (hy : y.isFinite = true) (hz : z.isFinite = true)
    (h : z.toRat = x.toRat + y.toRat) : (x + y - y).equal x = true := by
  obtain ⟨hsum, hvalue⟩ := toRat_add hx hy hz h
  have hneg : y.neg.isFinite = true := by
    obtain ⟨t, n, hn, rfl⟩ := exists_of_isFinite hy
    rfl
  have hback : x.toRat = (x + y).toRat + y.neg.toRat := by
    rw [hvalue, h, toRat_neg, add_neg_cancel_right]
  obtain ⟨hfinite, hdifference⟩ := toRat_add hsum hneg hx hback
  exact equal_of_toRat hfinite hx hdifference

/-! ## The nearest number -/

/-- The count of a finite number; what is not finite has none. -/
def units : Binary64 → Nat
  | .finite _ n _ => n
  | _ => 0

/-- Whether `y` is nearer to `r` than `z` is, or as near and its significand is even. -/
def Preferred (r : ℚ) (y z : Binary64) : Prop :=
  |r - y.toRat| < |r - z.toRat| ∨
    |r - y.toRat| = |r - z.toRat| ∧ significand y.units % 2 = 0

/-- What a rational number is rounded to, up to the sign of a zero. -/
structure IsNearest (r : ℚ) (y : Binary64) : Prop where
  finite : y.isFinite = true
  preferred (z : Binary64) : z.isFinite = true → z.toRat ≠ y.toRat → Preferred r y z

theorem Preferred.le {r : ℚ} (h : Preferred r x y) : |r - x.toRat| ≤ |r - y.toRat| :=
  h.elim le_of_lt fun htie => htie.1.le

theorem abs_natCast_sub (m n : Nat) : |(m : ℚ) - n| = Nat.dist m n := by
  rcases Nat.le_total m n with h | h
  · rw [abs_sub_comm, ← Nat.cast_sub h, Nat.abs_cast, Nat.dist_eq_sub_of_le h]
  · rw [← Nat.cast_sub h, Nat.abs_cast, Nat.dist_eq_sub_of_le_right h]

theorem abs_sub_eq_dist (h : 0 < den) (num n : Nat) :
    |(num / den / one : ℚ) - n / one| = (Nat.dist num (n * den) : ℚ) / (den * one) := by
  have hden : (0 : ℚ) < den := Nat.cast_pos.2 h
  have hone := one_pos_rat
  have hsub : (num / den / one : ℚ) - n / one = (num - (n * den : Nat)) / (den * one) := by
    rw [Nat.cast_mul]
    field_simp
  rw [hsub, abs_div, abs_of_pos (mul_pos hden hone), abs_natCast_sub]

theorem preferred_of_held (h : 0 < den) (hlt : roundUnits num den < limit) (hm : Held m)
    (hx : x.toRat = m / one) (hne : x.toRat ≠ (ofRatio false num den).toRat) :
    Preferred (num / den / one) (ofRatio false num den) x := by
  have hpos : (0 : ℚ) < den * one := mul_pos (Nat.cast_pos.2 h) one_pos_rat
  unfold Preferred
  rw [ofRatio_eq false hlt, toRat_positive, hx] at hne ⊢
  rw [abs_sub_eq_dist h, abs_sub_eq_dist h, div_lt_div_iff_of_pos_right hpos,
    div_left_inj' hpos.ne', Nat.cast_lt, Nat.cast_inj]
  refine roundUnits_closest num h hm ?_
  rintro rfl
  exact hne rfl

theorem abs_sub_lt_of_neg {r : ℚ} (hr : 0 ≤ r) (h : x.toRat < 0) : |r - 0| < |r - x.toRat| := by
  rw [abs_of_nonneg (by linarith), abs_of_nonneg (by linarith)]
  linarith

theorem preferred_ofRatio (h : 0 < den) (hlt : roundUnits num den < limit)
    (hx : x.isFinite = true) (hne : x.toRat ≠ (ofRatio false num den).toRat) :
    Preferred (num / den / one) (ofRatio false num den) x := by
  rcases le_or_gt 0 x.toRat with hnonneg | hneg
  · obtain ⟨s, m, hm, rfl⟩ := exists_of_isFinite hx
    refine preferred_of_held h hlt (dvd_of_fits hm) ?_ hne
    rw [← abs_toRat s hm, abs_of_nonneg hnonneg]
  · -- Zero is as near as any number below it.
    have hr : (0 : ℚ) ≤ num / den / one :=
      div_nonneg (div_nonneg (Nat.cast_nonneg num) (Nat.cast_nonneg den)) one_pos_rat.le
    have hzero : |(num / den / one : ℚ) - (ofRatio false num den).toRat|
        ≤ |(num / den / one : ℚ) - (zero false).toRat| := by
      by_cases hne : (zero false).toRat = (ofRatio false num den).toRat
      · rw [hne]
      · have h0 : (zero false).toRat = (0 : Nat) / one := by
          rw [toRat_zero, Nat.cast_zero, zero_div]
        exact (preferred_of_held h hlt (Nat.dvd_zero _) h0 hne).le
    rw [toRat_zero] at hzero
    exact .inl (hzero.trans_lt (abs_sub_lt_of_neg hr hneg))

theorem isNearest_ofRatio (num : Nat) (h : 0 < den) (hlt : roundUnits num den < limit) :
    IsNearest (num / den / one) (ofRatio false num den) where
  finite := by
    rw [ofRatio_eq false hlt]
    rfl
  preferred _ := preferred_ofRatio h hlt

end Measures.Binary64
