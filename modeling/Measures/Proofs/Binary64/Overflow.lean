import Measures.Proofs.Binary64.Error

/-!
# Rounding with overflow

A quotient is rounded to infinity from half-way between the greatest number and the power of two
above it on. Below it is rounded to the nearest number.
-/

namespace Measures.Binary64

variable {num den : Nat}

/-! ## The end of the range -/

theorem held_limit : Held limit := by
  have hlimit : limit = Nat.pow 2 53 * Nat.pow 2 (rangeBits - 53) := by decide +kernel
  rw [hlimit]
  exact held_mul_pow (Nat.le_refl _) _

theorem held_greatest : Held greatest := held_mul_pow (by decide) _

theorem greatest_lt_limit : greatest < limit := by decide +kernel

theorem odd_significand_greatest : significand greatest % 2 = 1 := by
  have hsignificand : significand greatest = Nat.pow 2 53 - 1 :=
    significand_mul_pow (.inr (by decide)) (by decide)
  rw [hsignificand]

/-- From half-way on the limit is at least as near as any number, and the greatest one is odd. -/
theorem limit_le_roundUnits (h : 0 < den) (hle : (greatest + limit) * den ≤ 2 * num) :
    limit ≤ roundUnits num den := by
  by_contra hlt
  have hle_greatest : roundUnits num den ≤ greatest :=
    le_greatest (fits_roundUnits (Nat.lt_of_not_le hlt))
  have hnear := roundUnits_closest num h held_limit (by omega)
  have hodd := odd_significand_greatest
  have hstep := Nat.mul_le_mul_right den hle_greatest
  have hfar := Nat.mul_lt_mul_of_pos_right greatest_lt_limit h
  rw [Nat.add_mul] at hle
  have hlast : roundUnits num den * den = greatest * den := by
    unfold Nat.dist at hnear
    omega
  rw [Nat.eq_of_mul_eq_mul_right h hlast] at hnear
  unfold Nat.dist at hnear
  omega

theorem roundUnits_lt_limit (h : 0 < den) (hlt : 2 * num < (greatest + limit) * den) :
    roundUnits num den < limit := by
  by_contra hge
  have hlimit := greatest_lt_limit
  have hnear := roundUnits_closest num h held_greatest (by omega)
  have hstep := Nat.mul_le_mul_right den (Nat.le_of_not_lt hge)
  have hfar := Nat.mul_lt_mul_of_pos_right greatest_lt_limit h
  rw [Nat.add_mul] at hlt
  unfold Nat.dist at hnear
  omega

/-! ## What a rational number is rounded to -/

/-- Half-way between the greatest number and 2¹⁰²⁴. -/
def overflow : ℚ := (2 ^ 54 - 1) * 2 ^ 970

/-- What rounding makes of a rational number that is not negative. -/
def IsRounded (r : ℚ) (y : Binary64) : Prop :=
  if overflow ≤ r then y = .infinite false else IsNearest r y

theorem overflow_eq : overflow = (greatest + limit : Nat) / 2 / one := by decide +kernel

theorem overflow_le_iff (h : 0 < den) :
    overflow ≤ num / den / one ↔ (greatest + limit) * den ≤ 2 * num := by
  have hden : (0 : ℚ) < den := Nat.cast_pos.2 h
  rw [overflow_eq, div_le_div_iff_of_pos_right one_pos_rat, div_le_div_iff₀ two_pos hden,
    mul_comm (num : ℚ)]
  norm_cast

theorem isRounded_ofRatio (num : Nat) (h : 0 < den) :
    IsRounded (num / den / one) (ofRatio false num den) := by
  unfold IsRounded
  split
  · next hle =>
    have hlimit := limit_le_roundUnits h ((overflow_le_iff h).1 hle)
    unfold ofRatio ofUnits
    exact dif_neg fun hfits => Nat.not_lt.2 hlimit hfits.1
  · next hlt =>
    rw [overflow_le_iff h, Nat.not_le] at hlt
    exact isNearest_ofRatio num h (roundUnits_lt_limit h hlt)

end Measures.Binary64
