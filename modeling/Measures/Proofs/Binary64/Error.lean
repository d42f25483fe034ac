import Mathlib.Data.Nat.Cast.Order.Field
import Mathlib.Tactic.Positivity
import Measures.Proofs.Binary64.Rational

/-!
# Errors and order of roundings

A quotient is rounded in the order of quotients, whatever fraction it is given as, and by at most
one part in 2⁵³ and half a unit.
-/

namespace Measures.Binary64

variable {num den num' den' c k m n : Nat} {x : Binary64}

/-- A positive number whose count has a property, found by computing it. -/
theorem exists_positive {P : Nat → Prop} [DecidablePred P]
    (h : (x.isFinite && !x.isNegative && decide (P x.units)) = true) :
    ∃ n hn, x = .finite false n hn ∧ P n := by
  simp only [Bool.and_eq_true, Bool.not_eq_true', decide_eq_true_eq] at h
  obtain ⟨⟨hx, hs⟩, hP⟩ := h
  obtain ⟨s, n, hn, rfl⟩ := exists_of_isFinite hx
  obtain rfl : s = false := hs
  exact ⟨n, hn, rfl, hP⟩

/-! ## Products and quotients -/

theorem mul_finite (s t : Bool) (hm : Fits m) (hn : Fits n) :
    finite s m hm * finite t n hn = ofRatio (s != t) (m * n) one := by
  change mul _ _ = _
  simp only [mul, isNegative]

theorem div_finite (s t : Bool) (hm : Fits m) (hn : Fits n) (hpos : 0 < n) :
    finite s m hm / finite t n hn = ofRatio (s != t) (m * one) n := by
  change div _ _ = _
  simp only [div, isNegative, if_neg (Nat.ne_of_gt hpos)]

theorem ofRatio_cases (s : Bool) (num den : Nat) :
    (∃ h, ofRatio s num den = .finite s (roundUnits num den) h) ∨
    ofRatio s num den = .infinite s := by
  unfold ofRatio ofUnits
  split
  · next h => exact .inl ⟨h, rfl⟩
  · exact .inr rfl

/-! ## Order -/

theorem divEven_mul_right (hc : 0 < c) (num den : Nat) :
    divEven (num * c) (den * c) = divEven num den := by
  have hlt (a b : Nat) : 2 * (a * c) < b * c ↔ 2 * a < b := by
    rw [← Nat.mul_assoc]
    exact Nat.mul_lt_mul_right hc
  have hgt (a b : Nat) : b * c < 2 * (a * c) ↔ b < 2 * a := by
    rw [← Nat.mul_assoc]
    exact Nat.mul_lt_mul_right hc
  unfold divEven
  simp only [Nat.mul_mod_mul_right, Nat.mul_div_mul_right _ _ hc, hlt, hgt]

theorem roundUnits_mul_right (hc : 0 < c) (num den : Nat) :
    roundUnits (num * c) (den * c) = roundUnits num den := by
  simp only [roundUnits, Nat.mul_div_mul_right _ _ hc, Nat.mul_right_comm den c,
    divEven_mul_right hc]

theorem roundUnits_le_num (h : 0 < den) (hle : num ≤ num') :
    roundUnits num den ≤ roundUnits num' den := by
  by_contra hlt
  have hnear := roundUnits_closest num h (held_roundUnits num' den) (by omega)
  have hnear' := roundUnits_closest num' h (held_roundUnits num den) (by omega)
  have hfar : roundUnits num' den * den < roundUnits num den * den :=
    Nat.mul_lt_mul_of_pos_right (Nat.lt_of_not_le hlt) h
  have hsame : num = num' := by
    unfold Nat.dist at hnear hnear'
    omega
  subst hsame
  exact hlt (Nat.le_refl _)

theorem roundUnits_mono (h : 0 < den) (h' : 0 < den') (hle : num * den' ≤ num' * den) :
    roundUnits num den ≤ roundUnits num' den' := by
  rw [← roundUnits_mul_right h' num, ← roundUnits_mul_right h num', Nat.mul_comm den' den]
  exact roundUnits_le_num (Nat.mul_pos h h') hle

theorem roundUnits_congr (h : 0 < den) (h' : 0 < den') (heq : num * den' = num' * den) :
    roundUnits num den = roundUnits num' den' :=
  Nat.le_antisymm (roundUnits_mono h h' heq.le) (roundUnits_mono h' h heq.ge)

theorem place_ofRatio (num den : Nat) :
    (ofRatio false num den).place? = some ((min (roundUnits num den) limit : Nat) : Int) := by
  unfold ofRatio ofUnits
  split
  · next h => rw [Nat.min_eq_left h.1.le, place?, signed_false]
  · next h =>
    have hle : limit ≤ roundUnits num den := by
      by_contra hlt
      exact h (fits_roundUnits (Nat.lt_of_not_le hlt))
    rw [Nat.min_eq_right hle, place?, signed_false]

theorem ofRatio_lessEq (h : 0 < den) (h' : 0 < den') (hle : num * den' ≤ num' * den) :
    (ofRatio false num den).lessEq (ofRatio false num' den') = true := by
  have hround := roundUnits_mono h h' hle
  unfold lessEq
  rw [place_ofRatio, place_ofRatio]
  apply decide_eq_true
  omega

/-! ## Errors -/

theorem step_le (num den : Nat) :
    (Nat.pow 2 (spacing (num / den)) : ℚ) ≤ num / den / 2 ^ 52 + 1 := by
  have hquotient : (0 : ℚ) ≤ num / den := by positivity
  rcases Nat.eq_zero_or_pos (spacing (num / den)) with h0 | hpos
  · rw [h0]
    have : (0 : ℚ) ≤ num / den / 2 ^ 52 := by positivity
    simpa using this
  · have hle : (2 ^ 52 * Nat.pow 2 (spacing (num / den)) : ℚ) ≤ num / den := by
      refine le_trans ?_ Nat.cast_div_le
      exact_mod_cast pow_spacing_le hpos
    linarith

theorem abs_roundUnits_sub_le (num : Nat) (h : 0 < den) :
    |(roundUnits num den : ℚ) - num / den| ≤ num / den / 2 ^ 53 + 1 / 2 := by
  have hden : (0 : ℚ) < den := Nat.cast_pos.2 h
  obtain ⟨hlow, hhigh⟩ := roundUnits_bounds num h
  have hstep := step_le num den
  have hnum : (num : ℚ) = num / den * den := by field_simp
  have hlow' : (2 * (roundUnits num den * den) : ℚ)
      ≤ 2 * num + den * Nat.pow 2 (spacing (num / den)) := by exact_mod_cast hlow
  have hhigh' : (2 * num : ℚ)
      ≤ 2 * (roundUnits num den * den) + den * Nat.pow 2 (spacing (num / den)) := by
    exact_mod_cast hhigh
  have hupper : (roundUnits num den : ℚ)
      ≤ num / den + (Nat.pow 2 (spacing (num / den)) : Nat) / 2 := by
    rw [← mul_le_mul_iff_left₀ hden]
    linarith
  have hlower : (num / den : ℚ)
      ≤ roundUnits num den + (Nat.pow 2 (spacing (num / den)) : Nat) / 2 := by
    rw [← mul_le_mul_iff_left₀ hden]
    linarith
  rw [abs_le]
  constructor <;> linarith

theorem abs_toRat_sub (s : Bool) (hk : Fits k) (hm : Fits m) :
    |(finite s k hk).toRat - (finite s m hm).toRat| = |(k : ℚ) - m| / one := by
  have hone := one_pos_rat
  cases s with
  | false => rw [toRat_positive, toRat_positive, ← sub_div, abs_div, abs_of_pos hone]
  | true =>
    rw [toRat_negative, toRat_negative, neg_sub_neg, ← sub_div, abs_div, abs_of_pos hone,
      abs_sub_comm]

theorem pow_cast (e : Nat) : ((Nat.pow 2 e : Nat) : ℚ) = 2 ^ e := Nat.cast_pow 2 e

end Measures.Binary64
