import Mathlib.Data.Nat.Dist
import Measures.Proofs.Binary64.Held

/-!
# Rounding

The counts that are held with 53 bits lie, from the size of a quotient on, on the steps in which the
quotient is rounded. So the nearest integer number of steps is the nearest held count, and an even
number of steps is an even significand.
-/

namespace Measures.Binary64

variable {num den m c k : Nat}

/-! ## Integers next to a quotient -/

theorem divEven_bounds (num : Nat) (h : 0 < den) :
    2 * (divEven num den * den) ≤ 2 * num + den ∧ 2 * num ≤ 2 * (divEven num den * den) + den := by
  have hnum : num / den * den + num % den = num := Nat.div_add_mod' num den
  have hlt : num % den < den := Nat.mod_lt num h
  have hnext : (num / den + 1) * den = num / den * den + den := Nat.succ_mul _ _
  unfold divEven
  split
  · omega
  split
  · rw [hnext]
    omega
  · rcases Nat.mod_two_eq_zero_or_one (num / den) with h2 | h2
    · rw [h2, Nat.add_zero]
      omega
    · rw [h2, hnext]
      omega

theorem div_le_divEven (num den : Nat) : num / den ≤ divEven num den := by
  unfold divEven
  split
  · exact Nat.le_refl _
  split
  · exact Nat.le_succ _
  · exact Nat.le_add_right _ _

theorem divEven_le_succ (num den : Nat) : divEven num den ≤ num / den + 1 := by
  unfold divEven
  split
  · exact Nat.le_succ _
  split
  · exact Nat.le_refl _
  · omega

/-- Half-way between two integers the even one is taken. -/
theorem divEven_even (h : 0 < den) (htie : 2 * (divEven num den * den) = 2 * num + den ∨
    2 * num = 2 * (divEven num den * den) + den) : divEven num den % 2 = 0 := by
  have hnum : num / den * den + num % den = num := Nat.div_add_mod' num den
  have hlt : num % den < den := Nat.mod_lt num h
  have hnext : (num / den + 1) * den = num / den * den + den := Nat.succ_mul _ _
  unfold divEven at htie ⊢
  split at htie
  · omega
  split at htie
  · rw [hnext] at htie
    omega
  · rename_i hlt hgt
    rw [if_neg hlt, if_neg hgt]
    omega

theorem add_le_or_add_le (h : c ≠ k) (den : Nat) :
    c * den + den ≤ k * den ∨ k * den + den ≤ c * den := by
  rw [← Nat.succ_mul, ← Nat.succ_mul]
  rcases Nat.lt_or_gt_of_ne h with h | h
  · exact .inl (Nat.mul_le_mul_right den h)
  · exact .inr (Nat.mul_le_mul_right den h)

/-- Of the integers next to a quotient the nearest one is taken, and the even one if two are as
near. -/
theorem divEven_closest (num : Nat) (h : 0 < den) (hne : k ≠ divEven num den) :
    Nat.dist num (divEven num den * den) < Nat.dist num (k * den) ∨
    Nat.dist num (divEven num den * den) = Nat.dist num (k * den) ∧ divEven num den % 2 = 0 := by
  obtain ⟨hlow, hhigh⟩ := divEven_bounds num h
  have hapart := add_le_or_add_le hne den
  by_cases htie : 2 * (divEven num den * den) = 2 * num + den ∨
      2 * num = 2 * (divEven num den * den) + den
  · have heven := divEven_even h htie
    unfold Nat.dist
    omega
  · unfold Nat.dist
    omega

/-- An even integer that is at most a half away is the one that is taken. -/
theorem divEven_eq (h : 0 < den) (heven : c % 2 = 0) (hlow : 2 * (c * den) ≤ 2 * num + den)
    (hhigh : 2 * num ≤ 2 * (c * den) + den) : divEven num den = c := by
  by_contra hne
  obtain ⟨hlow', hhigh'⟩ := divEven_bounds num h
  have hapart := add_le_or_add_le hne den
  -- Both are a half away, and there is no room for two even integers.
  have heven' : divEven num den % 2 = 0 := divEven_even h (by omega)
  rcases Nat.lt_or_gt_of_ne hne with hlt | hgt
  · have hfar := Nat.mul_le_mul_right den (show divEven num den + 2 ≤ c by omega)
    rw [Nat.add_mul] at hfar
    omega
  · have hfar := Nat.mul_le_mul_right den (show c + 2 ≤ divEven num den by omega)
    rw [Nat.add_mul] at hfar
    omega

/-! ## Rounding -/

theorem roundUnits_eq (num den : Nat) : roundUnits num den
    = divEven num (den * Nat.pow 2 (spacing (num / den))) * Nat.pow 2 (spacing (num / den)) := rfl

theorem divEven_le (num den : Nat) :
    divEven num (den * Nat.pow 2 (spacing (num / den))) ≤ Nat.pow 2 53 := by
  have hlt : num / den / Nat.pow 2 (spacing (num / den)) < Nat.pow 2 53 := by
    rw [Nat.div_lt_iff_lt_mul (powTwo_pos _)]
    exact lt_pow_spacing _
  have hsucc := divEven_le_succ num (den * Nat.pow 2 (spacing (num / den)))
  rw [← Nat.div_div_eq_div_mul] at hsucc
  exact Nat.le_trans hsucc hlt

theorem le_divEven (num den : Nat) : spacing (num / den) = 0 ∨
    Nat.pow 2 52 ≤ divEven num (den * Nat.pow 2 (spacing (num / den))) := by
  rcases Nat.eq_zero_or_pos (spacing (num / den)) with h0 | hpos
  · exact .inl h0
  · have hle : Nat.pow 2 52 ≤ num / den / Nat.pow 2 (spacing (num / den)) := by
      rw [Nat.le_div_iff_mul_le (powTwo_pos _)]
      exact pow_spacing_le hpos
    rw [Nat.div_div_eq_div_mul] at hle
    exact .inr (Nat.le_trans hle (div_le_divEven _ _))

theorem held_roundUnits (num den : Nat) : Held (roundUnits num den) := by
  rw [roundUnits_eq]
  exact held_mul_pow (divEven_le num den) _

/-- A held count lies on the steps in which a quotient is rounded, or it is small. -/
theorem steps_or_small (hm : Held m) (num den : Nat) :
    Nat.pow 2 (spacing (num / den)) ∣ m ∨
    m < Nat.pow 2 52 * Nat.pow 2 (spacing (num / den)) ∧
      Nat.pow 2 52 * Nat.pow 2 (spacing (num / den)) * den ≤ num := by
  rcases Nat.eq_zero_or_pos (spacing (num / den)) with h0 | hpos
  · rw [h0]
    exact .inl (Nat.one_dvd m)
  · rcases Nat.lt_or_ge m (Nat.pow 2 52 * Nat.pow 2 (spacing (num / den))) with hlt | hge
    · have hle := Nat.mul_le_mul_right den (pow_spacing_le hpos)
      exact .inr ⟨hlt, Nat.le_trans hle (Nat.div_mul_le_self num den)⟩
    · exact .inl (pow_dvd_of_le hm hge)

/-- Of the held counts the one nearest to the quotient is taken, and one with an even significand
if another one is as near. -/
theorem roundUnits_closest (num : Nat) (h : 0 < den) (hm : Held m) (hne : m ≠ roundUnits num den) :
    Nat.dist num (roundUnits num den * den) < Nat.dist num (m * den) ∨
    Nat.dist num (roundUnits num den * den) = Nat.dist num (m * den) ∧
      significand (roundUnits num den) % 2 = 0 := by
  have hround := roundUnits_eq num den
  have hle := divEven_le num den
  have hge := le_divEven num den
  have hgrid := steps_or_small hm num den
  generalize spacing (num / den) = e at *
  have hstep : 0 < den * Nat.pow 2 e := Nat.mul_pos h (powTwo_pos e)
  have hsteps (k : Nat) : k * Nat.pow 2 e * den = k * (den * Nat.pow 2 e) := by
    rw [Nat.mul_assoc, Nat.mul_comm den]
  have heven := even_significand_mul_pow hle hge
  rcases hgrid with ⟨k, rfl⟩ | ⟨hsmall, hlarge⟩
  · rw [Nat.mul_comm _ k] at hne ⊢
    have hk : k ≠ divEven num (den * Nat.pow 2 e) := by
      rintro rfl
      exact hne hround.symm
    rw [hround, hsteps, hsteps]
    exact (divEven_closest num hstep hk).imp_right (And.imp_right heven)
  · -- A small count is on the far side of the least one on these steps.
    have hfar : m * den < Nat.pow 2 52 * Nat.pow 2 e * den := Nat.mul_lt_mul_of_pos_right hsmall h
    rw [hsteps] at hlarge hfar
    rw [hround, hsteps]
    left
    by_cases hk : Nat.pow 2 52 = divEven num (den * Nat.pow 2 e)
    · rw [← hk]
      unfold Nat.dist
      omega
    · have hnear := divEven_closest num hstep hk
      unfold Nat.dist at hnear ⊢
      omega

/-! ### Bounds -/

theorem roundUnits_le (h : 0 < den) (hm : Held m) (hle : num ≤ m * den) :
    roundUnits num den ≤ m := by
  by_contra hlt
  have hfar : m * den < roundUnits num den * den :=
    Nat.mul_lt_mul_of_pos_right (Nat.lt_of_not_le hlt) h
  have hnear := roundUnits_closest num h hm (by omega)
  unfold Nat.dist at hnear
  omega

theorem le_roundUnits (h : 0 < den) (hm : Held m) (hle : m * den ≤ num) :
    m ≤ roundUnits num den := by
  by_contra hlt
  have hfar : roundUnits num den * den < m * den :=
    Nat.mul_lt_mul_of_pos_right (Nat.lt_of_not_le hlt) h
  have hnear := roundUnits_closest num h hm (by omega)
  unfold Nat.dist at hnear
  omega

/-- A quotient is rounded by at most half a step. -/
theorem roundUnits_bounds (num : Nat) (h : 0 < den) :
    2 * (roundUnits num den * den) ≤ 2 * num + den * Nat.pow 2 (spacing (num / den)) ∧
    2 * num ≤ 2 * (roundUnits num den * den) + den * Nat.pow 2 (spacing (num / den)) := by
  rw [roundUnits_eq, Nat.mul_assoc, Nat.mul_comm _ den]
  exact divEven_bounds num (Nat.mul_pos h (powTwo_pos _))

theorem fits_roundUnits (h : roundUnits num den < limit) : Fits (roundUnits num den) :=
  fits_of_held h (held_roundUnits num den)

theorem ofRatio_eq (negative : Bool) (h : roundUnits num den < limit) :
    ofRatio negative num den = .finite negative (roundUnits num den) (fits_roundUnits h) :=
  ofUnits_of_fits negative _

end Measures.Binary64
