import Measures.Proofs.Binary64.Rational
import Measures.Proofs.Scalar.Wrap

/-!
# Sums of angles undone

A sum of two angles that is a number is taken back without loss, also past the full turn. The
complement of an angle is rounded, and its sum with the angle is rounded to the full turn again.
-/

namespace Measures.Scalar

open Binary64

variable {x : Binary64} {a b n : Nat} {ha : Fits a} {hb : Fits b} {hn : Fits n}

/-! ## Sums and differences of counts -/

theorem add_positive_rounded (hpos : 0 < a + b) :
    finite false a ha + finite false b hb = ofRatio false (a + b) 1 := by
  refine add_of_sum ?_ hpos
  exact (Int.natCast_add a b).symm

theorem add_positive (h : Fits (a + b)) :
    finite false a ha + finite false b hb = finite false (a + b) h := by
  rcases Nat.eq_zero_or_pos (a + b) with h0 | hpos
  · obtain ⟨rfl, rfl⟩ : a = 0 ∧ b = 0 := by omega
    rfl
  · rw [add_positive_rounded hpos, ofRatio_of_fits]

theorem sub_positive (h : Fits (a - b)) (hle : b ≤ a) :
    finite false a ha - finite false b hb = finite false (a - b) h := by
  change finite false a ha + finite true b hb = _
  rcases Nat.eq_zero_or_pos (a - b) with h0 | hpos
  · have hsum := signed_add_of_le hle
    rw [h0, signed_zero] at hsum
    rw [add_of_cancel hsum]
    simp only [h0]
    rfl
  · exact add_of_fits h (signed_add_of_le hle) hpos

theorem sub_negative (h : Fits (b - a)) (hlt : a < b) :
    finite false a ha - finite false b hb = finite true (b - a) h :=
  add_of_fits h (signed_add_of_ge hlt.le) (by omega)

/-! ## A sum undone -/

/-- What is missing to the period is held as finely as both terms and the sum are. -/
theorem fits_missing (hb : Fits b) (hn : Fits n) (hsum : Fits (a + b)) (hle : n ≤ a + b) :
    Fits (n - a) := by
  apply fits_of_held (Nat.lt_of_le_of_lt (Nat.sub_le n a) hn.1)
  have hdn := Nat.dvd_trans (pow_spacing_dvd (Nat.sub_le n a)) (dvd_of_fits hn)
  have hdb : Nat.pow 2 (spacing (n - a)) ∣ b :=
    Nat.dvd_trans (pow_spacing_dvd (by omega)) (dvd_of_fits hb)
  have hdsum : Nat.pow 2 (spacing (n - a)) ∣ a + b :=
    Nat.dvd_trans (pow_spacing_dvd (by omega)) (dvd_of_fits hsum)
  exact Nat.dvd_sub hdn ((Nat.dvd_add_left hdb).1 hdsum)

/-- A difference below zero is as much below the period, where it is a number again. -/
theorem wrap_missing (ha : Fits a) (hk : Fits (n - a)) (hpos : 0 < a) (han : a < n) :
    wrap (.finite true (n - a) hk) (.finite false n hn) = .finite false a ha := by
  have hmod : (n - a) % n = n - a := Nat.mod_eq_of_lt (by omega)
  have hback : n - (n - a) = a := by omega
  rw [wrap_of_neg hk (by omega) (by omega)]
  simp only [hmod, hback]
  rw [roundUnits_of_fits ha, if_neg (Nat.ne_of_lt han), ofRatio_of_fits]

theorem wrap_add_sub (hsum : Fits (a + b)) (han : a < n) (hbn : b < n) :
    wrap (wrap (finite false a ha + finite false b hb) (.finite false n hn) - finite false b hb)
      (.finite false n hn) = finite false a ha := by
  have hn0 : 0 < n := by omega
  have hself : wrap (finite false a ha) (.finite false n hn) = finite false a ha :=
    wrap_of_isReduced hn0 (isReduced_of_lt ha han)
  rw [add_positive hsum, wrap_of_nonneg hsum hn0 (.inl rfl)]
  rcases Nat.lt_or_ge (a + b) n with hlt | hge
  · have hback : (a + b) % n - b = a := by
      rw [Nat.mod_eq_of_lt hlt, Nat.add_sub_cancel]
    have hfits : Fits ((a + b) % n - b) := by
      rw [hback]
      exact ha
    have hle : b ≤ (a + b) % n := by
      rw [Nat.mod_eq_of_lt hlt]
      exact Nat.le_add_left b a
    rw [sub_positive hfits hle]
    simp only [hback]
    exact hself
  · -- Past the period the difference is below zero, by what is missing to the period.
    have hmod : (a + b) % n = a + b - n := by
      rw [Nat.mod_eq_sub_mod hge, Nat.mod_eq_of_lt (by omega)]
    have hback : b - (a + b) % n = n - a := by omega
    have hk := fits_missing hb hn hsum hge
    have hfits : Fits (b - (a + b) % n) := by
      rw [hback]
      exact hk
    rw [sub_negative hfits (by omega)]
    simp only [hback]
    exact wrap_missing ha hk (by omega) han

theorem fits_of_toRat {z : Binary64} (hz : z.isFinite = true)
    (h : z.toRat = (finite false a ha).toRat + (finite false b hb).toRat) : Fits (a + b) := by
  obtain ⟨u, k, hk, rfl⟩ := exists_of_isFinite hz
  have hsum : signed u k = (a + b : Nat) := by
    rw [toRat_finite, toRat_positive, toRat_positive, ← add_div,
      div_left_inj' one_pos_rat.ne'] at h
    exact_mod_cast h
  have hcount : k = a + b := by
    rw [← natAbs_signed u k, hsum, Int.natAbs_natCast]
  exact hcount ▸ hk

theorem wrapTurn_add_sub {y z : Binary64} (hx : x.isFinite = true) (hy : y.isFinite = true)
    (hz : z.isFinite = true) (h : z.toRat = x.toRat + y.toRat) (hxr : IsReduced fullTurn x)
    (hyr : IsReduced fullTurn y) : wrapTurn (wrapTurn (x + y) - y) = x := by
  unfold wrapTurn
  rw [fullTurn_eq] at *
  obtain ⟨a, ha, rfl, hlta⟩ := hxr.exists_count hx
  obtain ⟨b, hb, rfl, hltb⟩ := hyr.exists_count hy
  exact wrap_add_sub (fits_of_toRat hz h) hlta hltb

/-! ## The full turn -/

/-- Numbers around a full turn are held to a multiple of `2 ^ turnBits`. -/
def turnBits : Nat := 1030

/-- Half the distance of the numbers around a full turn. -/
def halfStep : Nat := Nat.pow 2 turnBits / 2

theorem two_halfStep : Nat.pow 2 turnBits = 2 * halfStep := by decide +kernel

theorem one_eq_halfStep : one = 2 ^ 45 * halfStep := by decide +kernel

theorem halfStep_pos : 0 < halfStep := by
  have hpos := powTwo_pos turnBits
  rw [two_halfStep] at hpos
  omega

theorem spacing_le_turnBits (h : a < 2 ^ 9 * one) : spacing a ≤ turnBits := by
  apply spacing_le_of_lt
  rw [two_halfStep]
  rw [one_eq_halfStep] at h
  simp only [Nat.pow_eq, Nat.reducePow] at *
  omega

theorem turnBits_le_spacing (h : 2 ^ 8 * one ≤ a) : turnBits ≤ spacing a := by
  apply le_spacing_of_le
  rw [two_halfStep]
  rw [one_eq_halfStep] at h
  simp only [Nat.pow_eq, Nat.reducePow] at *
  omega

theorem roundUnits_near_turn (hlow : 360 * one ≤ a + halfStep)
    (hhigh : a ≤ 360 * one + halfStep) : roundUnits a 1 = 360 * one := by
  have hone := one_eq_halfStep
  have hpos := halfStep_pos
  have hspacing : spacing a = turnBits :=
    Nat.le_antisymm (spacing_le_turnBits (by omega)) (turnBits_le_spacing (by omega))
  have hsteps : divEven a (2 * halfStep) = 360 * 2 ^ 44 := by
    apply divEven_eq
    · omega
    · rfl
    · omega
    · omega
  rw [roundUnits_eq, Nat.div_one, hspacing, Nat.one_mul, two_halfStep, hsteps]
  omega

/-- Up to a full turn a count is rounded by at most half of this distance. -/
theorem roundUnits_error (h : a ≤ 360 * one) :
    roundUnits a 1 ≤ a + halfStep ∧ a ≤ roundUnits a 1 + halfStep := by
  have hpos := one_pos
  have hstep : Nat.pow 2 (spacing a) ≤ Nat.pow 2 turnBits :=
    Nat.le_of_dvd (powTwo_pos turnBits) (pow_dvd_pow (spacing_le_turnBits (by omega)))
  have hbounds := roundUnits_bounds a Nat.one_pos
  rw [Nat.div_one, Nat.one_mul, Nat.mul_one] at hbounds
  rw [two_halfStep] at hstep
  omega

/-! ## Opposite angles -/

/-- The opposite of an angle is a full turn less the angle, rounded; for the least angles it is
zero. -/
theorem wrapTurn_opposite (hb : Fits b) (hlt : b < 360 * one) :
    wrapTurn (.finite true b hb)
      = if b ≤ halfStep then zero false else ofRatio false (360 * one - b) 1 := by
  have hmod : b % (360 * one) = b := Nat.mod_eq_of_lt hlt
  unfold wrapTurn
  rw [fullTurn_eq]
  rcases Nat.eq_zero_or_pos b with rfl | hpos
  · rw [wrap_of_nonneg hb turn_pos (.inr (Nat.zero_mod _)), if_pos (Nat.zero_le _)]
    simp only [Nat.zero_mod]
    rfl
  · have hreach : roundUnits (360 * one - b) 1 = 360 * one ↔ b ≤ halfStep := by
      constructor
      · intro h
        have herror := roundUnits_error (Nat.sub_le (360 * one) b)
        omega
      · intro h
        exact roundUnits_near_turn (by omega) (by omega)
    rw [wrap_of_neg hb turn_pos (by omega), hmod]
    simp only [hreach]

theorem wrapTurn_opposite_add (hb : Fits b) (hlt : b < 360 * one) :
    wrapTurn (wrapTurn (.finite true b hb) + .finite false b hb)
      = if 0 < b ∧ b ≤ halfStep then .finite false b hb else zero false := by
  have hself : wrapTurn (.finite false b hb) = .finite false b hb := by
    unfold wrapTurn
    rw [fullTurn_eq]
    exact wrap_of_isReduced turn_pos (isReduced_of_lt hb hlt)
  rw [wrapTurn_opposite hb hlt]
  by_cases hle : b ≤ halfStep
  · have hsum : zero false + finite false b hb = .finite false (0 + b) (by rwa [Nat.zero_add]) :=
      add_positive _
    rw [if_pos hle, hsum]
    simp only [Nat.zero_add, hself]
    split
    · rfl
    · obtain rfl : b = 0 := by omega
      rfl
  · -- The complement is at most half a step off, and so is its sum with the angle.
    have herror := roundUnits_error (Nat.sub_le (360 * one) b)
    have hcomplement := roundUnits_sub_le fits_turn b
    have hsum := roundUnits_near_turn (a := roundUnits (360 * one - b) 1 + b) (by omega) (by omega)
    rw [if_neg hle, if_neg (fun h => hle h.2),
      ofRatio_eq false (Nat.lt_of_le_of_lt hcomplement fits_turn.1),
      add_positive_rounded (by omega)]
    unfold ofRatio
    rw [hsum, ofUnits_of_fits false fits_turn]
    unfold wrapTurn
    rw [fullTurn_eq, wrap_of_nonneg fits_turn turn_pos (.inl rfl)]
    simp only [Nat.mod_self]
    rfl

theorem toRat_le_iff : (finite false b hb).toRat ≤ 1 / 2 ^ 45 ↔ b ≤ halfStep := by
  rw [toRat_positive, div_le_div_iff₀ one_pos_rat (by positivity), one_mul, one_eq_halfStep]
  norm_cast
  omega

/-- An angle and its opposite make nothing, unless the angle is so small that its opposite is
nothing. -/
theorem opposite_add (hx : x.isFinite = true) (h : IsReduced fullTurn x) :
    if 0 < x.toRat ∧ x.toRat ≤ 1 / 2 ^ 45 then
      wrapTurn x.neg = zero false ∧ wrapTurn (wrapTurn x.neg + x) = x
    else wrapTurn (wrapTurn x.neg + x) = zero false := by
  rw [fullTurn_eq] at h
  obtain ⟨b, hb, rfl, hlt⟩ := h.exists_count hx
  have hneg : (finite false b hb).neg = finite true b hb := rfl
  have hcases : (0 < (finite false b hb).toRat ∧ (finite false b hb).toRat ≤ 1 / 2 ^ 45) ↔
      0 < b ∧ b ≤ halfStep := by
    rw [toRat_le_iff, toRat_pos_iff]
    simp
  rw [hneg, wrapTurn_opposite_add hb hlt, wrapTurn_opposite hb hlt]
  simp only [hcases]
  split
  · next h => exact ⟨if_pos h.2, rfl⟩
  · rfl

end Measures.Scalar
