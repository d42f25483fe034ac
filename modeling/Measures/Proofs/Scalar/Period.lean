import Mathlib.Data.Rat.Floor
import Measures.Formula
import Measures.Proofs.Binary64.Rational
import Measures.Proofs.Scalar.Guarded
import Measures.Proofs.Scalar.Wrap

/-!
# The representative by a period

A number that is not negative comes to its exact remainder. Below zero the period less the remainder
is rounded to the nearest number, and if this is the period itself the representative is zero.
-/

namespace Measures.Scalar

open Binary64

variable {s : Bool} {m n : Nat} {hm : Fits m} {hn : Fits n} {p x y : Binary64}

/-- What `x` exceeds the greatest multiple of `p` by that is not above it. -/
def residue (x p : ℚ) : ℚ := x - p * ⌊x / p⌋

/-- `y` is what a finite `x` is reduced to by a positive period `p`. -/
structure IsRepresentative (p x y : Binary64) : Prop where
  finite : y.isFinite = true
  range : 0 ≤ y.toRat ∧ y.toRat < p.toRat
  ne_negative_zero : y ≠ zero true
  of_nonneg : 0 ≤ x.toRat → y.toRat = residue x.toRat p.toRat
  of_multiple (k : ℤ) : x.toRat = k * p.toRat → y = zero false
  of_neg : x.toRat < 0 → (¬ ∃ k : ℤ, x.toRat = k * p.toRat) →
    ∃ z, IsNearest (p.toRat - residue |x.toRat| p.toRat) z ∧
      y = if z.toRat = p.toRat then zero false else z

/-! ## Remainders -/

theorem residue_units (m n : Nat) : residue (m / one) (n / one) = (m % n : Nat) / one := by
  have hfloor : ⌊(m / one / (n / one) : ℚ)⌋ = (m / n : Nat) := by
    rw [div_div_div_cancel_right₀ one_pos_rat.ne', Rat.floor_natCast_div_natCast,
      Int.natCast_div]
  have hmod : (n : ℚ) * (m / n : Nat) + (m % n : Nat) = m := by
    rw [← Nat.cast_mul, ← Nat.cast_add, Nat.div_add_mod]
  unfold residue
  rw [hfloor, Int.cast_natCast, div_mul_eq_mul_div, ← sub_div, ← hmod, add_sub_cancel_left]

theorem multiple_iff :
    (∃ k : ℤ, (finite s m hm).toRat = k * (finite false n hn).toRat) ↔ m % n = 0 := by
  have hunits (k : ℤ) : (finite s m hm).toRat = k * (finite false n hn).toRat ↔
      signed s m = k * n := by
    rw [toRat_finite, toRat_positive, ← mul_div_assoc, div_left_inj' one_pos_rat.ne']
    norm_cast
  simp only [hunits]
  rw [← dvd_iff_exists_eq_mul_left, Int.natCast_dvd, natAbs_signed, Nat.dvd_iff_mod_eq_zero]

/-! ## The representative -/

theorem range_of_lt (hm : Fits m) (h : m < n) :
    0 ≤ (finite false m hm).toRat ∧ (finite false m hm).toRat < (finite false n hn).toRat := by
  rw [toRat_positive, toRat_positive, div_lt_div_iff_of_pos_right one_pos_rat, Nat.cast_lt]
  exact ⟨div_nonneg (Nat.cast_nonneg m) one_pos_rat.le, h⟩

theorem isRepresentative_remainder (hm : Fits m) (h : 0 < n) (hs : s = false ∨ m % n = 0) :
    IsRepresentative (.finite false n hn) (.finite s m hm)
      (.finite false (m % n) (fits_mod hm hn h)) where
  finite := rfl
  range := range_of_lt _ (Nat.mod_lt m h)
  ne_negative_zero := by simp [zero]
  of_nonneg hx := by
    rw [← abs_of_nonneg hx, abs_toRat, toRat_positive, toRat_positive, residue_units]
  of_multiple k hk := by
    have hmod := multiple_iff.1 ⟨k, hk⟩
    simp only [hmod]
    rfl
  of_neg hx hk := by
    obtain ⟨rfl, -⟩ := toRat_neg_iff.1 hx
    exact absurd (multiple_iff.2 (hs.resolve_left Bool.true_eq_false_eq_False)) hk

theorem sub_residue (hm : Fits m) (hn : Fits n) (h : 0 < n) :
    (finite false n hn).toRat - residue |(finite s m hm).toRat| (finite false n hn).toRat
      = (n - m % n : Nat) / (1 : Nat) / one := by
  rw [abs_toRat, toRat_positive, residue_units, Nat.cast_sub (Nat.mod_lt m h).le, Nat.cast_one,
    div_one, sub_div]

theorem isRepresentative_shifted (hm : Fits m) (hk : 0 < m % n) (h : 0 < n) :
    IsRepresentative (.finite false n hn) (.finite true m hm)
      (if roundUnits (n - m % n) 1 = n then zero false else ofRatio false (n - m % n) 1) := by
  have hle := roundUnits_sub_le hn (m % n)
  have hlt : roundUnits (n - m % n) 1 < limit := Nat.lt_of_le_of_lt hle hn.1
  have hnearest := isNearest_ofRatio (n - m % n) Nat.one_pos hlt
  rw [← sub_residue (s := true) hm hn h] at hnearest
  rw [ofRatio_eq false hlt] at hnearest ⊢
  constructor
  case finite => split <;> rfl
  case range =>
    split
    · exact range_of_lt fits_zero h
    · exact range_of_lt _ (by omega)
  case ne_negative_zero => split <;> simp [zero]
  case of_nonneg =>
    intro hx
    have hm : 0 < m := Nat.lt_of_lt_of_le hk (Nat.mod_le m n)
    exact absurd hx (not_le_of_gt (toRat_neg_iff.2 ⟨rfl, hm⟩))
  case of_multiple =>
    intro k hmultiple
    exact absurd (multiple_iff.1 ⟨k, hmultiple⟩) (Nat.ne_of_gt hk)
  case of_neg =>
    intro _ _
    refine ⟨_, hnearest, ?_⟩
    simp only [toRat_inj]
    simp [signed]

theorem isRepresentative_wrap (s : Bool) (hm : Fits m) (h : 0 < n) :
    IsRepresentative (.finite false n hn) (.finite s m hm)
      (wrap (.finite s m hm) (.finite false n hn)) := by
  rcases wrap_cases s hm hn h with ⟨hs, hwrap⟩ | ⟨rfl, hk, hwrap⟩
  · rw [hwrap]
    exact isRepresentative_remainder hm h hs
  · rw [hwrap]
    exact isRepresentative_shifted hm hk h

theorem value_normalizeAngle (x : Binary64) (hp : p.isZero = false) :
    (Formula.normalizeAngle (.float x) (some (.float p))).value = .ok (.float (wrap x p)) := by
  have hvalue : (Datum.float x).normalizeAngle (.float p) = .ok (wrap x p) := by
    simp only [Datum.normalizeAngle, Datum.real, Datum.realOr, ok_bind, hp]
    cases hx : x.isFinite with
    | false =>
      unfold wrap wrapAt
      rw [hx]
      rfl
    | true => rfl
  exact congrArg (Except.map Datum.float) hvalue

/-- Every finite number has a representative by a positive period, which is its own; what is not
finite stays as it is. -/
theorem wrap_representative (h : 0 < p.toRat) (x : Binary64) :
    (x.isFinite = true → IsRepresentative p x (wrap x p)) ∧
      (x.isFinite = false → wrap x p = x) ∧
      wrap (wrap x p) p = wrap x p ∧
      (Formula.normalizeAngle (.float x) (some (.float p))).value = .ok (.float (wrap x p)) ∧
      Guarded.wrap x p = .ok (wrap x p) := by
  obtain ⟨n, hn, rfl, hpos⟩ := exists_of_toRat_pos h
  have hzero : (finite false n hn).isZero = false := beq_eq_false_iff_ne.2 (Nat.ne_of_gt hpos)
  refine ⟨fun hx => ?_, fun hx => ?_, wrap_of_isReduced hpos (wrap_isReduced x hpos),
    value_normalizeAngle x hzero, Guarded.wrap_eq x hzero rfl⟩
  · obtain ⟨s, m, hm, rfl⟩ := exists_of_isFinite hx
    exact isRepresentative_wrap s hm hpos
  · cases x with
    | nan | infinite _ => rfl
    | finite s m hm => cases hx

/-- The number next below zero comes to zero, because a period less the least count is rounded to
the period. -/
theorem wrap_representative_turn :
    0 < fullTurn.toRat ∧ IsRepresentative fullTurn (.ofInt (-90)) (.ofInt 270) ∧
      IsRepresentative fullTurn (.ofUnits true 1) (zero false) := by
  have hturn : 0 < fullTurn.toRat := by
    rw [fullTurn_eq]
    exact toRat_pos_iff.2 ⟨rfl, turn_pos⟩
  have hquarter : wrap (.ofInt (-90)) fullTurn = .ofInt 270 := by decide +kernel
  have hleast : wrap (.ofUnits true 1) fullTurn = zero false := by decide +kernel
  have hrun := (wrap_representative hturn (.ofInt (-90))).1 (by decide +kernel)
  have hrun' := (wrap_representative hturn (.ofUnits true 1)).1 (by decide +kernel)
  rw [hquarter] at hrun
  rw [hleast] at hrun'
  exact ⟨hturn, hrun, hrun'⟩

end Measures.Scalar
