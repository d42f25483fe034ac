import Measures.Proofs.Scalar.Saturation

/-!
# The nearest integer

What a number exceeds the integer below it by is rounded, but below a half it is exact, and rounding
brings nothing from a half or more to less than a half. So the integer is the exact one.
-/

namespace Measures

namespace Scalar

open Binary64 Guarded

variable {s : Bool} {n d : Nat} {hn : Fits n} {i : Int} {x : Binary64}

/-! ## The fraction -/

theorem fits_one : Fits one := by decide +kernel

theorem fits_half : Fits (one / 2) := by decide +kernel

theorem half_eq : half = .finite false (one / 2) fits_half := by decide +kernel

/-- A fraction below a half is not greater than the number itself. -/
theorem le_of_fraction (h : signed s n = i * one + d) (hd : 2 * d < one) : d ≤ n := by
  have habs := natAbs_signed s n
  rcases lt_or_ge i 0 with hi | hi
  · have hone : i * one ≤ -1 * one := Int.mul_le_mul_of_nonneg_right (by omega) one_pos_int.le
    omega
  · have hone : 0 ≤ i * one := Int.mul_nonneg hi one_pos_int.le
    omega

theorem fits_fraction (hn : Fits n) (h : signed s n = i * one + d) (hd : 2 * d < one) :
    Fits d := by
  have hlt : d < one := by omega
  apply fits_of_held (Nat.lt_trans hlt fits_one.1)
  have hdn : (Nat.pow 2 (spacing d) : Int) ∣ signed s n := by
    rw [Int.natCast_dvd, natAbs_signed]
    exact Nat.dvd_trans (pow_spacing_dvd (le_of_fraction h hd)) (dvd_of_fits hn)
  have hdone : (Nat.pow 2 (spacing d) : Int) ∣ i * one :=
    Dvd.dvd.mul_left (Int.natCast_dvd_natCast.2
      (Nat.dvd_trans (pow_spacing_dvd hlt.le) (dvd_of_fits fits_one))) i
  rw [h, Int.dvd_add_right hdone, Int.natCast_dvd_natCast] at hdn
  exact hdn

theorem half_lessEq_fraction (hd : d < one) (hfits : 2 * d < one → Fits d) :
    half.lessEq (ofRatio false d 1) = decide (one ≤ 2 * d) := by
  have hone : 2 * (one / 2) = one := by decide +kernel
  have hle : roundUnits d 1 ≤ one :=
    roundUnits_le Nat.one_pos (dvd_of_fits fits_one) (by omega)
  have hhalf : one / 2 ≤ roundUnits d 1 ↔ one ≤ 2 * d := by
    constructor
    · intro h
      by_contra hlt
      rw [roundUnits_of_fits (hfits (by omega))] at h
      omega
    · intro h
      exact le_roundUnits Nat.one_pos (dvd_of_fits fits_half) (by omega)
  rw [half_eq, ofRatio_eq false (Nat.lt_of_le_of_lt hle fits_one.1), lessEq_positive]
  exact decide_eq_decide.2 hhalf

theorem floor_add_half (i : Int) (h : d < one) :
    ⌊((i * one + d : Int) : ℚ) / one + 1 / 2⌋ = if one ≤ 2 * d then i + 1 else i := by
  have hone := one_pos_rat
  have hsum : ((i * one + d : Int) : ℚ) / one + 1 / 2 = i + (d / one + 1 / 2) := by
    push_cast
    rw [add_div, mul_div_cancel_right₀ _ hone.ne', add_assoc]
  have hnonneg : (0 : ℚ) ≤ d / one := div_nonneg (Nat.cast_nonneg d) hone.le
  have hlt : (d / one : ℚ) < 1 := (div_lt_one hone).2 (Nat.cast_lt.2 h)
  rw [hsum, Int.floor_eq_iff]
  split <;> rename_i hhalf
  · have hle : (1 / 2 : ℚ) ≤ d / one := by
      rw [div_le_div_iff₀ two_pos hone, one_mul, mul_comm]
      exact_mod_cast hhalf
    push_cast
    constructor <;> linarith
  · have hlt : (d / one : ℚ) < 1 / 2 := by
      rw [div_lt_div_iff₀ hone two_pos, one_mul, mul_comm]
      exact_mod_cast Nat.lt_of_not_le hhalf
    constructor <;> linarith

/-! ## The integer -/

theorem sub_ofInt (h : signed s n = i * one + d) (hi : i.natAbs ≤ wholeBound) (hd : 0 < d) :
    .finite s n hn - ofInt i = ofRatio false d 1 := by
  rw [ofInt_of_fits (fits_small hi)]
  have hneg := neg_signed_not (i < 0) (i.natAbs * one)
  rw [signed_natAbs] at hneg
  have hsum : signed s n + signed (!decide (i < 0)) (i.natAbs * one) = signed false d := by
    rw [signed_false]
    omega
  exact add_of_sum hsum hd

theorem nearest?_finite (s : Bool) (hn : Fits n) :
    nearest? (.finite s n hn) = some ⌊(finite s n hn).toRat + 1 / 2⌋ := by
  have hmod := Int.emod_lt_of_pos (signed s n) one_pos_int
  obtain ⟨d, hd⟩ := Int.eq_ofNat_of_zero_le (Int.emod_nonneg (signed s n) one_pos_int.ne')
  have hunits : signed s n = signed s n / one * one + d := by
    rw [← hd]
    exact (Int.ediv_mul_add_emod (signed s n) one).symm
  have hlt : d < one := by omega
  have hdvd : one ∣ n ↔ d = 0 := by
    rw [← Int.natCast_eq_zero, ← hd, ← Int.dvd_iff_emod_eq_zero, Int.natCast_dvd, natAbs_signed]
  have hreach : half.lessEq (.finite s n hn - ofInt (signed s n / one)) = decide (one ≤ 2 * d) := by
    by_cases hone : one ∣ n
    · -- A whole number exceeds its floor by nothing.
      obtain ⟨negative, hzero⟩ := sub_whole s hn hone
      have hpos := one_pos
      rw [ediv_of_whole s hone, hzero, half_lessEq_zero, hdvd.1 hone]
      exact (decide_eq_false (by omega)).symm
    · have hbounds := ediv_bounds s hn hone
      have hpos : 0 < d := by omega
      rw [sub_ofInt hunits (by omega) hpos, half_lessEq_fraction hlt (fits_fraction hn hunits)]
  unfold nearest?
  rw [floor?_finite, Option.map_some, hreach, toRat_finite]
  nth_rewrite 3 [hunits]
  rw [floor_add_half _ hlt]
  simp only [decide_eq_true_eq]

theorem nearest?_eq (hx : x.isFinite = true) : nearest? x = some ⌊x.toRat + 1 / 2⌋ := by
  obtain ⟨s, n, hn, rfl⟩ := exists_of_isFinite hx
  exact nearest?_finite s hn

theorem guarded_roundHalfUp (hx : x.isFinite = true) :
    Guarded.roundHalfUp x = .ok ⌊x.toRat + 1 / 2⌋ := by
  obtain ⟨i, hi, hnumber, -⟩ := exists_floor hx
  have hnearest := nearest?_eq hx
  unfold nearest? at hnearest
  rw [hi, Option.map_some] at hnearest
  rw [roundHalfUp_eq hi hnumber, Option.some.inj hnearest]

end Scalar

/-! ## Integers of 64 bits -/

/-- The nearest integer, a half upwards, at most at the ends of the range; NaN goes to zero. -/
def Binary64.nearestLong : Binary64 → Int
  | .nan => 0
  | .infinite s => if s then -2 ^ 63 else 2 ^ 63 - 1
  | .finite s n hn => max (-2 ^ 63) (min ⌊(finite s n hn).toRat + 1 / 2⌋ (2 ^ 63 - 1))

open Scalar Binary64

namespace Quantity

theorem nearest_or_saturate (x : Binary64) : (match nearest? x with
    | some i => Scalar.saturateInt .bits64 i
    | none => Scalar.saturate .bits64 x) = x.nearestLong := by
  cases x with
  | nan => rfl
  | infinite s => cases s <;> rfl
  | finite s n hn =>
    rw [nearest?_eq rfl]
    exact saturateInt_eq .bits64 _

/-- Half-way numbers go up, also where a float of the sum with a half would not be exact; of power
zero every quantity has a nearest integer of 64 bits. -/
theorem round_exact :
    (∀ x : Binary64, x.isFinite = true →
      (Formula.roundHalfUp (.float x)).value = .ok (.int ⌊x.toRat + 1 / 2⌋) ∧
        Guarded.roundHalfUp x = .ok ⌊x.toRat + 1 / 2⌋) ∧
    ∀ q : Quantity, q.hasPower 0 = true →
      q.round = .ok q.value.nearestLong ∧ Guarded.round q.value = .ok q.value.nearestLong := by
  constructor
  · intro x hx
    have hvalue : (Formula.roundHalfUp (.float x)).value = (Scalar.roundHalfUp x).map .int := rfl
    refine ⟨?_, guarded_roundHalfUp hx⟩
    rw [hvalue, Scalar.roundHalfUp, nearest?_eq hx]
    rfl
  · intro q hq
    have hpower : q.requirePowerZero "round" = .ok () := if_pos hq
    constructor
    · unfold Quantity.round
      rw [hpower]
      exact congrArg Except.ok (nearest_or_saturate q.value)
    · rw [Guarded.round_eq]
      exact congrArg Except.ok (nearest_or_saturate q.value)

/-- The number next below a half goes to 0, and minus two and a half goes up. -/
theorem round_exact_halves :
    let belowHalf := Binary64.ofBits 0x3fdfffffffffffff
    let x := Binary64.ofDecimal true [2, 5] (-1)
    let q := ofParts (.int 0) x .number 0 .none
    belowHalf.isFinite = true ∧
      (Formula.roundHalfUp (.float belowHalf)).value = .ok (.int 0) ∧
      q.hasPower 0 = true ∧ q.round = .ok (-2) := by
  intro belowHalf x q
  have hfinite : belowHalf.isFinite = true := by decide +kernel
  have hfloor : ⌊belowHalf.toRat + 1 / 2⌋ = 0 := by decide +kernel
  have hlong : q.value.nearestLong = -2 := by decide +kernel
  have hrun := (round_exact.1 belowHalf hfinite).1
  have hround := (round_exact.2 q rfl).1
  rw [hfloor] at hrun
  rw [hlong] at hround
  exact ⟨hfinite, hrun, rfl, hround⟩

end Quantity

end Measures
