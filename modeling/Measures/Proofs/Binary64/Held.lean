import Measures.Proofs.Binary64.Exact

/-!
# Counts of 53 bits

A count is held if it is a multiple of its own spacing. It then is a multiple of any power of two
that is not too large for it, and 53 bits times any power of two are held.
-/

namespace Measures.Binary64

variable {n c k : Nat}

/-! ## Powers of two -/

theorem pow_mul_pow (k l : Nat) : Nat.pow 2 k * Nat.pow 2 l = Nat.pow 2 (k + l) :=
  (Nat.pow_add 2 k l).symm

theorem one_eq : one = Nat.pow 2 fractionBits := by
  unfold one
  exact Eq.refl _

theorem pow_mul_one (k : Nat) : Nat.pow 2 k * one = Nat.pow 2 (k + fractionBits) := by
  rw [one_eq, pow_mul_pow]

theorem le_log2_of_pow_le (h : Nat.pow 2 k ≤ n) : k ≤ n.log2 :=
  (Nat.le_log2 (Nat.ne_of_gt (Nat.lt_of_lt_of_le (powTwo_pos k) h))).2 h

theorem log2_lt_of_lt_pow (hn : n ≠ 0) (h : n < Nat.pow 2 k) : n.log2 < k :=
  (Nat.log2_lt hn).2 h

theorem pow_dvd_pow {k l : Nat} (h : k ≤ l) : Nat.pow 2 k ∣ Nat.pow 2 l := Nat.pow_dvd_pow 2 h

theorem pow_lt_pow {k l : Nat} (h : k < l) : Nat.pow 2 k < Nat.pow 2 l :=
  Nat.pow_lt_pow_right Nat.one_lt_two h

/-! ## Spacing -/

theorem lt_pow_spacing (n : Nat) : n < Nat.pow 2 53 * Nat.pow 2 (spacing n) := by
  have hlog : n < 2 ^ (n.log2 + 1) := Nat.lt_log2_self
  rw [pow_mul_pow]
  refine Nat.lt_of_lt_of_le hlog (Nat.pow_le_pow_right (by decide) ?_)
  unfold spacing
  omega

theorem pow_spacing_le (h : 0 < spacing n) : Nat.pow 2 52 * Nat.pow 2 (spacing n) ≤ n := by
  unfold spacing at h ⊢
  have hn : n ≠ 0 := by
    rintro rfl
    simp at h
  have hlog : 52 + (n.log2 - 52) = n.log2 := by omega
  rw [pow_mul_pow, hlog]
  exact Nat.log2_self_le hn

theorem spacing_le_of_lt (h : n < Nat.pow 2 53 * Nat.pow 2 k) : spacing n ≤ k := by
  by_cases hn : n = 0
  · subst hn
    exact Nat.zero_le k
  · rw [pow_mul_pow] at h
    have hlog := log2_lt_of_lt_pow hn h
    unfold spacing
    omega

theorem le_spacing_of_le (h : Nat.pow 2 52 * Nat.pow 2 k ≤ n) : k ≤ spacing n := by
  rw [pow_mul_pow] at h
  have hlog := le_log2_of_pow_le h
  unfold spacing
  omega

theorem spacing_mul_pow (hlow : k = 0 ∨ Nat.pow 2 52 ≤ c) (hhigh : c < Nat.pow 2 53) :
    spacing (c * Nat.pow 2 k) = k := by
  have hpos := powTwo_pos k
  apply Nat.le_antisymm
  · exact spacing_le_of_lt (Nat.mul_lt_mul_of_pos_right hhigh hpos)
  · rcases hlow with rfl | hlow
    · exact Nat.zero_le _
    · exact le_spacing_of_le (Nat.mul_le_mul_right _ hlow)

/-! ## Held counts -/

def Held (n : Nat) : Prop := Nat.pow 2 (spacing n) ∣ n

theorem fits_of_held (h : n < limit) (hn : Held n) : Fits n := ⟨h, Nat.mod_eq_zero_of_dvd hn⟩

theorem pow_dvd_of_le (h : Held n) (hle : Nat.pow 2 52 * Nat.pow 2 k ≤ n) : Nat.pow 2 k ∣ n :=
  Nat.dvd_trans (pow_dvd_pow (le_spacing_of_le hle)) h

theorem carry_mul_pow (k : Nat) : Nat.pow 2 53 * Nat.pow 2 k = Nat.pow 2 52 * Nat.pow 2 (k + 1) := by
  rw [pow_mul_pow, pow_mul_pow, Nat.add_comm k, ← Nat.add_assoc]

theorem held_mul_pow (h : c ≤ Nat.pow 2 53) (k : Nat) : Held (c * Nat.pow 2 k) := by
  have hheld {c k : Nat} (h : c < Nat.pow 2 53) : Held (c * Nat.pow 2 k) := by
    have hspacing : spacing (c * Nat.pow 2 k) ≤ k :=
      spacing_le_of_lt (Nat.mul_lt_mul_of_pos_right h (powTwo_pos k))
    exact Nat.dvd_trans (pow_dvd_pow hspacing) (Nat.dvd_mul_left _ _)
  rcases Nat.lt_or_eq_of_le h with hlt | rfl
  · exact hheld hlt
  · rw [carry_mul_pow]
    exact hheld (by decide)

/-- A count in steps of its own spacing. -/
def significand (n : Nat) : Nat := n / Nat.pow 2 (spacing n)

theorem significand_mul_pow (hlow : k = 0 ∨ Nat.pow 2 52 ≤ c) (hhigh : c < Nat.pow 2 53) :
    significand (c * Nat.pow 2 k) = c := by
  unfold significand
  rw [spacing_mul_pow hlow hhigh, Nat.mul_div_cancel _ (powTwo_pos k)]

theorem even_significand_mul_pow (h : c ≤ Nat.pow 2 53) (hlow : k = 0 ∨ Nat.pow 2 52 ≤ c)
    (heven : c % 2 = 0) : significand (c * Nat.pow 2 k) % 2 = 0 := by
  rcases Nat.lt_or_eq_of_le h with hlt | rfl
  · rw [significand_mul_pow hlow hlt]
    exact heven
  · rw [carry_mul_pow, significand_mul_pow (.inr (Nat.le_refl _)) (by decide)]

/-! ## The greatest number -/

theorem le_of_held {e : Nat} (h : Held n) (hlt : n < Nat.pow 2 53 * Nat.pow 2 e) :
    n ≤ (Nat.pow 2 53 - 1) * Nat.pow 2 e := by
  rcases Nat.lt_or_ge n (Nat.pow 2 52 * Nat.pow 2 e) with hsmall | hge
  · exact Nat.le_trans (Nat.le_of_lt hsmall) (Nat.mul_le_mul_right _ (by decide))
  · obtain ⟨c, rfl⟩ := pow_dvd_of_le h hge
    rw [Nat.mul_comm] at hlt ⊢
    have hc : c < Nat.pow 2 53 := Nat.lt_of_mul_lt_mul_right hlt
    exact Nat.mul_le_mul_right _ (Nat.le_sub_one_of_lt hc)

/-- The greatest count that fits. -/
def greatest : Nat := (Nat.pow 2 53 - 1) * Nat.pow 2 (rangeBits - 53)

theorem le_greatest (h : Fits n) : n ≤ greatest := by
  have hlimit : limit = Nat.pow 2 53 * Nat.pow 2 (rangeBits - 53) := by decide +kernel
  have hlt := h.1
  rw [hlimit] at hlt
  exact le_of_held (dvd_of_fits h) hlt

end Measures.Binary64
