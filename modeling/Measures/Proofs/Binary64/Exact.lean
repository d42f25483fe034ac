import Measures.Binary64.Arithmetic

/-!
# Where nothing is rounded

A count that fits is its own rounding, and the remainder of two counts that fit fits.
-/

namespace Measures.Binary64

theorem exists_of_isFinite {x : Binary64} (h : x.isFinite = true) :
    ∃ s n hn, x = .finite s n hn := by
  cases x with
  | nan | infinite _ => cases h
  | finite s n hn => exact ⟨s, n, hn, rfl⟩

/-! ## Counts -/

theorem log2_le_log2 {m n : Nat} (h : m ≤ n) : m.log2 ≤ n.log2 := by
  by_cases hm : m = 0
  · subst hm
    exact Nat.zero_le _
  · have hn : n ≠ 0 := by omega
    exact (Nat.le_log2 hn).2 (Nat.le_trans (Nat.log2_self_le hm) h)

theorem spacing_mono {m n : Nat} (h : m ≤ n) : spacing m ≤ spacing n :=
  Nat.sub_le_sub_right (log2_le_log2 h) 52

theorem dvd_of_fits {n : Nat} (h : Fits n) : Nat.pow 2 (spacing n) ∣ n :=
  Nat.dvd_of_mod_eq_zero h.2

/-- A coarser spacing divides what a finer one need not. -/
theorem pow_spacing_dvd {m n : Nat} (h : m ≤ n) :
    Nat.pow 2 (spacing m) ∣ Nat.pow 2 (spacing n) :=
  Nat.pow_dvd_pow 2 (spacing_mono h)

theorem fits_mod {m n : Nat} (hm : Fits m) (hn : Fits n) (h : 0 < n) : Fits (m % n) := by
  have hlt : m % n < n := Nat.mod_lt m h
  refine ⟨Nat.lt_of_le_of_lt (Nat.mod_le m n) hm.1, Nat.mod_eq_zero_of_dvd ?_⟩
  rcases Nat.lt_or_ge m n with hmn | hmn
  · rw [Nat.mod_eq_of_lt hmn]
    exact dvd_of_fits hm
  · have hle : m % n ≤ n := Nat.le_of_lt hlt
    -- Both counts lie on the grid of the remainder, which is the finest of the three.
    have hdn := Nat.dvd_trans (pow_spacing_dvd hle) (dvd_of_fits hn)
    have hdm := Nat.dvd_trans (pow_spacing_dvd (Nat.le_trans hle hmn)) (dvd_of_fits hm)
    exact (Nat.dvd_mod_iff hdn).2 hdm

/-! ## Rounding -/

theorem divEven_of_dvd {num den : Nat} (hd : 0 < den) (h : den ∣ num) :
    divEven num den = num / den := by
  have h0 : num % den = 0 := Nat.mod_eq_zero_of_dvd h
  simp only [divEven, h0, Nat.mul_zero, if_pos hd]

theorem roundUnits_of_fits {n : Nat} (h : Fits n) : roundUnits n 1 = n := by
  have hd : 0 < Nat.pow 2 (spacing n) := powTwo_pos _
  simp only [roundUnits, Nat.div_one, Nat.one_mul]
  rw [divEven_of_dvd hd (dvd_of_fits h)]
  exact Nat.div_mul_cancel (dvd_of_fits h)

theorem ofRatio_of_fits (negative : Bool) {n : Nat} (h : Fits n) :
    ofRatio negative n 1 = .finite negative n h := by
  unfold ofRatio
  rw [roundUnits_of_fits h]
  exact ofUnits_of_fits negative h

theorem ofInt_natCast (k : Nat) (h : Fits (k * one)) : ofInt k = .finite false (k * one) h := by
  have hk : decide ((k : Int) < 0) = false := by simp
  unfold ofInt
  rw [hk, Int.natAbs_natCast]
  exact ofRatio_of_fits false h

/-! ## Counts with a sign -/

theorem signed_false (n : Nat) : signed false n = n := rfl

theorem signed_true (n : Nat) : signed true n = -(n : Int) := rfl

theorem signed_zero (s : Bool) : signed s 0 = 0 := by cases s <;> rfl

theorem neg_signed_not (s : Bool) (n : Nat) : -signed (!s) n = signed s n := by
  cases s with
  | false => exact Int.neg_neg _
  | true => rfl

theorem natAbs_signed (s : Bool) (n : Nat) : (signed s n).natAbs = n := by
  cases s with
  | false => exact Int.natAbs_natCast n
  | true => exact (Int.natAbs_neg _).trans (Int.natAbs_natCast n)

theorem signed_ne_zero (s : Bool) {n : Nat} (h : 0 < n) : signed s n ≠ 0 := by
  unfold signed
  split <;> omega

theorem signed_lt_zero (s : Bool) {n : Nat} (h : 0 < n) : decide (signed s n < 0) = s := by
  cases s with
  | false => exact decide_eq_false (Int.not_lt.2 (Int.natCast_nonneg n))
  | true => exact decide_eq_true (Int.neg_neg_of_pos (Int.natCast_pos.2 h))

theorem lessEq_positive {m n : Nat} (hm : Fits m) (hn : Fits n) :
    (finite false m hm).lessEq (.finite false n hn) = decide (m ≤ n) :=
  decide_eq_decide.2 Int.ofNat_le

theorem signed_add_of_le {m n : Nat} (h : n ≤ m) :
    signed false m + signed true n = signed false (m - n) := by
  rw [signed_false, signed_true, signed_false]
  omega

theorem signed_add_of_ge {m n : Nat} (h : m ≤ n) :
    signed false m + signed true n = signed true (n - m) := by
  rw [signed_false, signed_true, signed_true]
  omega

/-! ## Operations -/

theorem rem_finite (s t : Bool) {m n : Nat} (hm : Fits m) (hn : Fits n) (h : 0 < n) :
    rem (.finite s m hm) (.finite t n hn) = .finite s (m % n) (fits_mod hm hn h) := by
  simp only [rem, if_neg (Nat.ne_of_gt h)]
  exact ofRatio_of_fits s _

/-- A sum is rounded once. -/
theorem add_of_sum {s t u : Bool} {m n k : Nat} {hm : Fits m} {hn : Fits n}
    (h : signed s m + signed t n = signed u k) (hk : 0 < k) :
    finite s m hm + finite t n hn = ofRatio u k 1 := by
  change addFinite s m t n = _
  simp only [addFinite, h, if_neg (signed_ne_zero u hk), signed_lt_zero u hk, natAbs_signed]

theorem add_of_fits {s t u : Bool} {m n k : Nat} {hm : Fits m} {hn : Fits n} (hk : Fits k)
    (h : signed s m + signed t n = signed u k) (hpos : 0 < k) :
    finite s m hm + finite t n hn = finite u k hk := by
  rw [add_of_sum h hpos, ofRatio_of_fits]

theorem add_of_cancel {s t : Bool} {m n : Nat} {hm : Fits m} {hn : Fits n}
    (h : signed s m + signed t n = 0) : finite s m hm + finite t n hn = zero (s && t) := by
  change addFinite s m t n = _
  rw [addFinite, if_pos h]

/-- A zero that is added to takes away the sign of a negative zero. -/
theorem add_zero_of_eq_zero (s : Bool) : finite s 0 fits_zero + zero false = zero false := by
  cases s <;> rfl

/-- Adding a zero to a number other than zero changes nothing. -/
theorem add_zero_of_pos (s : Bool) {n : Nat} (hn : Fits n) (h : 0 < n) :
    finite s n hn + zero false = finite s n hn :=
  add_of_fits hn (by rw [signed_zero, Int.add_zero]) h

/-! ## Whole numbers -/

theorem signed_mul (s : Bool) (m k : Nat) : signed s (m * k) = signed s m * k := by
  cases s with
  | false => exact Int.natCast_mul m k
  | true =>
    show -((m * k : Nat) : Int) = -(m : Int) * k
    rw [Int.natCast_mul, Int.neg_mul]

theorem signed_natAbs (i : Int) (k : Nat) : signed (i < 0) (i.natAbs * k) = i * k := by
  have habs : signed (i < 0) i.natAbs = i := by
    unfold signed
    split <;> rename_i hi <;> simp only [decide_eq_true_eq] at hi <;> omega
  rw [signed_mul, habs]

theorem lessInt_of_toInt? {x : Binary64} {i : Int} (h : x.toInt? = some i) (k : Int) :
    x.lessInt k = decide (i < k) := by
  cases x with
  | nan | infinite _ => cases h
  | finite s n hn =>
    rw [toInt?, Option.ite_none_right_eq_some] at h
    obtain ⟨hmod, hi⟩ := h
    have hn : n = n / one * one := (Nat.div_mul_cancel (Nat.dvd_of_mod_eq_zero hmod)).symm
    have hplace : signed s n = i * one := by
      rw [← Option.some.inj hi, hn, Nat.mul_div_cancel _ one_pos, signed_mul]
    have hone : (0 : Int) < one := Int.natCast_pos.2 one_pos
    rw [lessInt, hplace, intPlace]
    exact decide_eq_decide.2 (Int.mul_lt_mul_right hone)

end Measures.Binary64
