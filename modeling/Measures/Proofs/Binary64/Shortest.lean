import Measures.Binary64.Shortest
import Measures.Proofs.Binary64.Error

/-!
# Decimals that read back

A decimal that is at most half-way to the neighbours of a count is rounded to it. Half-way, the
even one of two neighbours is taken, and of two neighbours only one is even.
-/

namespace Measures.Binary64

variable {c d e j m n : Nat}

/-! ## Neighbours -/

theorem gapAbove_pos (n : Nat) : 0 < gapAbove n := powTwo_pos _

theorem significand_mul_gapAbove (h : Held n) : significand n * gapAbove n = n :=
  Nat.div_mul_cancel h

theorem significand_lt (n : Nat) : significand n < Nat.pow 2 53 :=
  (Nat.div_lt_iff_lt_mul (powTwo_pos _)).2 (lt_pow_spacing n)

theorem le_significand (n : Nat) : spacing n = 0 ∨ Nat.pow 2 52 ≤ significand n := by
  rcases Nat.eq_zero_or_pos (spacing n) with h0 | hpos
  · exact .inl h0
  · exact .inr ((Nat.le_div_iff_mul_le (powTwo_pos _)).2 (pow_spacing_le hpos))

theorem add_gapAbove_le (hn : Held n) (hm : Held m) (h : n < m) : n + gapAbove n ≤ m := by
  have hdvd : gapAbove n ∣ m := Nat.dvd_trans (pow_spacing_dvd (Nat.le_of_lt h)) hm
  have hle := Nat.le_of_dvd (Nat.sub_pos_of_lt h) (Nat.dvd_sub hdvd hn)
  omega

/-- Of two neighbours only one is even. -/
theorem odd_significand_add (h : Held n) (heven : significand n % 2 = 0) :
    significand (n + gapAbove n) % 2 = 1 := by
  have hlt := significand_lt n
  have hle := le_significand n
  have hsum : n + gapAbove n = (significand n + 1) * Nat.pow 2 (spacing n) := by
    rw [Nat.succ_mul]
    exact congrArg (· + gapAbove n) (significand_mul_gapAbove h).symm
  have hodd : significand n + 1 < Nat.pow 2 53 := by
    have : Nat.pow 2 53 % 2 = 0 := by decide
    omega
  rw [hsum, significand_mul_pow (hle.imp_right Nat.le_succ_of_le) hodd]
  omega

/-- The neighbour below is on steps of its own, which are finer below a power of two. -/
theorem exists_below (h : Held n) (hpos : 0 < n) : ∃ c e, n = (c + 1) * Nat.pow 2 e ∧
    gapBelow n = Nat.pow 2 e ∧ (e = 0 ∨ Nat.pow 2 52 ≤ c) ∧ c < Nat.pow 2 53 := by
  unfold gapBelow
  split
  · next hpower =>
    obtain ⟨hspacing, hlog⟩ := hpower
    refine ⟨Nat.pow 2 53 - 1, spacing n - 1, ?_, rfl, .inr (by decide), by decide⟩
    have hexponent : n.log2 = 53 + (spacing n - 1) := by
      unfold spacing at *
      omega
    rw [Nat.sub_add_cancel (powTwo_pos 53), pow_mul_pow, ← hexponent]
    exact hlog
  · next hpower =>
    have hn := significand_mul_gapAbove h
    have hlt := significand_lt n
    have hsignificand : 0 < significand n := by
      apply Nat.pos_of_ne_zero
      intro h0
      rw [h0, Nat.zero_mul] at hn
      omega
    refine ⟨significand n - 1, spacing n, ?_, rfl, ?_, by omega⟩
    · rw [Nat.sub_add_cancel hsignificand]
      exact hn.symm
    · rcases le_significand n with h0 | hle
      · exact .inl h0
      rcases Nat.eq_zero_or_pos (spacing n) with h0 | hspacing
      · exact .inl h0
      -- A significand of 2⁵² alone is a power of two.
      have hne : significand n ≠ Nat.pow 2 52 := by
        intro heq
        rw [heq] at hn
        have hexponent : 52 + spacing n = n.log2 := by
          unfold spacing at *
          omega
        refine hpower ⟨hspacing, ?_⟩
        rw [← hexponent, ← pow_mul_pow]
        exact hn.symm
      exact .inr (by omega)

theorem exists_neighbour (h : Held n) (hpos : 0 < n) :
    ∃ k, Held k ∧ k + gapBelow n = n ∧ gapAbove k = gapBelow n := by
  obtain ⟨c, e, heq, hgap, hlow, hhigh⟩ := exists_below h hpos
  refine ⟨c * Nat.pow 2 e, held_mul_pow (Nat.le_of_lt hhigh) e, ?_, ?_⟩
  · rw [hgap, ← Nat.succ_mul]
    exact heq.symm
  · rw [hgap, gapAbove, spacing_mul_pow hlow hhigh]

theorem add_gapBelow_le (hn : Held n) (hm : Held m) (h : m < n) : m + gapBelow n ≤ n := by
  obtain ⟨k, hk, hsum, hgap⟩ := exists_neighbour hn (by omega)
  have hle : m ≤ k := by
    by_contra hlt
    have := add_gapAbove_le hk hm (Nat.lt_of_not_le hlt)
    omega
  omega

theorem gapAbove_below (hn : Held n) (hpos : 0 < n) (h : m + gapBelow n = n) :
    gapAbove m = gapBelow n := by
  obtain ⟨k, -, hsum, hgap⟩ := exists_neighbour hn hpos
  obtain rfl : m = k := by omega
  exact hgap

theorem gapBelow_pos (n : Nat) : 0 < gapBelow n := by
  unfold gapBelow
  split <;> exact powTwo_pos _

theorem gapBelow_le (hn : Held n) (hpos : 0 < n) : gapBelow n ≤ n := by
  have := add_gapBelow_le hn (Nat.dvd_zero _) hpos
  omega

/-! ## Reading back -/

/-- The units of `10 ^ -fractionBits` in a unit. -/
def fine : Nat := Nat.pow 5 fractionBits

theorem powFive_pos (k : Nat) : 0 < Nat.pow 5 k := Nat.pow_pos (by decide)

theorem fine_pos : 0 < fine := by
  unfold fine
  exact powFive_pos _

theorem scaled_eq (n : Nat) : scaled n = n * fine := by
  unfold scaled fine
  exact Eq.refl _

theorem add_eq_of_fine {k l : Nat} (h : k * fine + l * fine = n * fine) : k + l = n :=
  Nat.eq_of_mul_eq_mul_right fine_pos ((Nat.add_mul k l fine).trans h)

theorem readsBack_bounds (h : readsBack n d = true) :
    2 * n * fine ≤ 2 * d + gapBelow n * fine ∧ 2 * d ≤ 2 * n * fine + gapAbove n * fine ∧
      ((2 * n * fine = 2 * d + gapBelow n * fine ∨ 2 * d = 2 * n * fine + gapAbove n * fine) →
        significand n % 2 = 0) := by
  unfold readsBack at h
  simp only [scaled_eq, Nat.add_mul, Nat.sub_mul] at h
  split at h
  · next heven =>
    simp only [Bool.and_eq_true, decide_eq_true_eq] at h
    exact ⟨by omega, by omega, fun _ => heven⟩
  · simp only [Bool.and_eq_true, decide_eq_true_eq] at h
    exact ⟨by omega, by omega, fun _ => by omega⟩

/-- What is at most half-way to the neighbours of a count is rounded to it. -/
theorem roundUnits_of_readsBack (hn : Held n) (hpos : 0 < n) (h : readsBack n d = true) :
    roundUnits d fine = n := by
  by_contra hne
  have hheld := held_roundUnits d fine
  have hnear := roundUnits_closest d fine_pos hn (Ne.symm hne)
  obtain ⟨hlow, hhigh, heven⟩ := readsBack_bounds h
  generalize roundUnits d fine = r at *
  rw [Nat.mul_assoc] at hlow hhigh heven
  unfold Nat.dist at hnear
  rcases Nat.lt_or_gt_of_ne hne with hlt | hgt
  · have hfar := Nat.mul_lt_mul_of_pos_right hlt fine_pos
    have hbelow := Nat.mul_le_mul_right fine (add_gapBelow_le hn hheld hlt)
    rw [Nat.add_mul] at hbelow
    -- The decimal is half-way, and both neighbours are even.
    have hneighbour : r + gapBelow n = n := add_eq_of_fine (by omega)
    have hodd := odd_significand_add hheld (by omega)
    rw [gapAbove_below hn hpos hneighbour, hneighbour, heven (.inl (by omega))] at hodd
    cases hodd
  · have hfar := Nat.mul_lt_mul_of_pos_right hgt fine_pos
    have habove := Nat.mul_le_mul_right fine (add_gapAbove_le hn hheld hgt)
    rw [Nat.add_mul] at habove
    have hneighbour : n + gapAbove n = r := add_eq_of_fine (by omega)
    have hodd := odd_significand_add hn (heven (.inr (by omega)))
    rw [hneighbour] at hodd
    omega

/-! ## The search -/

theorem readsBack_scaled (hn : Held n) (hpos : 0 < n) : readsBack n (scaled n) = true := by
  have hbelow := Nat.mul_pos (gapBelow_pos n) fine_pos
  have habove := Nat.mul_pos (gapAbove_pos n) fine_pos
  have hscaled := Nat.mul_le_mul_right fine (gapBelow_le hn hpos)
  unfold readsBack
  simp only [scaled_eq, Nat.add_mul, Nat.sub_mul, Nat.mul_assoc]
  split <;> simp only [Bool.and_eq_true, decide_eq_true_eq] <;> omega

theorem nearer_cases (d step lo : Nat) : nearer d step lo = lo ∨ nearer d step lo = lo + 1 := by
  simp only [nearer]
  split
  · exact .inl rfl
  split
  · exact .inr rfl
  · omega

theorem readsBack_of_onGrid? (h : onGrid? n j = some c) :
    readsBack n (c * Nat.pow 10 j) = true := by
  simp only [onGrid?] at h
  split at h
  · next hlow hhigh =>
    obtain rfl := Option.some.inj h
    rcases nearer_cases (scaled n) (Nat.pow 10 j) (scaled n / Nat.pow 10 j) with heq | heq
    · rw [heq]
      exact hlow
    · rw [heq]
      exact hhigh
  · next hlow _ =>
    obtain rfl := Option.some.inj h
    exact hlow
  · next _ hhigh =>
    obtain rfl := Option.some.inj h
    exact hhigh
  · cases h

theorem readsBack_searchFrom (hn : Held n) (hpos : 0 < n) (j : Nat) :
    readsBack n ((searchFrom n j).1 * Nat.pow 10 (searchFrom n j).2) = true := by
  induction j with
  | zero =>
    rw [searchFrom]
    change readsBack n (scaled n * 1) = true
    rw [Nat.mul_one]
    exact readsBack_scaled hn hpos
  | succ j ih =>
    rw [searchFrom]
    split
    · next h => exact readsBack_of_onGrid? h
    · exact ih

/-! ## Bounds -/

theorem bounds_of_readsBack (hn : Held n) (hpos : 0 < n) (h : readsBack n d = true) :
    fine ≤ 2 * d ∧ 2 * d ≤ 3 * n * fine := by
  obtain ⟨hlow, hhigh, -⟩ := readsBack_bounds h
  have hbelow := Nat.mul_le_mul_right fine (gapBelow_le hn hpos)
  have habove := Nat.mul_le_mul_right fine (Nat.le_of_dvd hpos hn)
  have hone := Nat.mul_le_mul_right fine hpos
  change gapAbove n * fine ≤ n * fine at habove
  simp only [Nat.mul_assoc] at *
  omega

theorem exists_shortest (hn : Held n) (hpos : 0 < n) : ∃ c j : Nat,
    shortest n = ⟨c, j - fractionBits⟩ ∧ 0 < c ∧ readsBack n (c * Nat.pow 10 j) = true := by
  have hback := readsBack_searchFrom hn hpos ((Nat.toDigits 10 (scaled n)).length - 1)
  refine ⟨_, _, rfl, ?_, hback⟩
  apply Nat.pos_of_ne_zero
  intro h0
  have hfine := (bounds_of_readsBack hn hpos hback).1
  have := fine_pos
  rw [h0, Nat.zero_mul] at hfine
  omega

theorem lt_pow_length (c : Nat) : c < Nat.pow 10 (Nat.toDigits 10 c).length :=
  (Nat.length_toDigits_le_iff (by decide) Nat.length_toDigits_pos).1 (Nat.le_refl _)

theorem pow_length_le (h : 0 < c) {k : Nat} (hk : k < (Nat.toDigits 10 c).length) :
    Nat.pow 10 k ≤ c := by
  rcases Nat.eq_zero_or_pos k with rfl | hpos
  · exact h
  · by_contra hlt
    have := (Nat.length_toDigits_le_iff (by decide) hpos).2 (Nat.lt_of_not_le hlt)
    omega

theorem powTen_mul (k l : Nat) : Nat.pow 10 k * Nat.pow 10 l = Nat.pow 10 (k + l) :=
  (Nat.pow_add 10 k l).symm

theorem powTen_le {k l : Nat} (h : k ≤ l) : Nat.pow 10 k ≤ Nat.pow 10 l :=
  Nat.pow_le_pow_right (by decide) h

/-- The length of the digits and zeros of a decimal between two powers of ten. -/
theorem length_bounds {k l : Nat} (hlow : Nat.pow 10 k < c * Nat.pow 10 j)
    (hhigh : c * Nat.pow 10 j < Nat.pow 10 l) :
    k < (Nat.toDigits 10 c).length + j ∧ (Nat.toDigits 10 c).length + j ≤ l := by
  have hc : 0 < c := by
    apply Nat.pos_of_ne_zero
    rintro rfl
    omega
  constructor
  · by_contra hle
    have hpow := powTen_le (Nat.le_of_not_lt hle)
    have hlt := Nat.mul_le_mul_right (Nat.pow 10 j) (Nat.le_of_lt (lt_pow_length c))
    rw [powTen_mul] at hlt
    omega
  · by_contra hlt
    have hlength : 0 < (Nat.toDigits 10 c).length := Nat.length_toDigits_pos
    have hle := pow_length_le hc (show (Nat.toDigits 10 c).length - 1 < _ by omega)
    have hmul := Nat.mul_le_mul_right (Nat.pow 10 j) hle
    rw [powTen_mul] at hmul
    have hpow := powTen_le (show l ≤ (Nat.toDigits 10 c).length - 1 + j by omega)
    omega

theorem length_of_fine {k l : Nat} (hk : 2 * Nat.pow 10 k < fine)
    (hl : 3 * limit * fine < 2 * Nat.pow 10 l) (hn : Fits n) (hpos : 0 < n)
    (h : readsBack n (c * Nat.pow 10 j) = true) :
    k < (Nat.toDigits 10 c).length + j ∧ (Nat.toDigits 10 c).length + j ≤ l := by
  obtain ⟨hlow, hhigh⟩ := bounds_of_readsBack (dvd_of_fits hn) hpos h
  have hle := Nat.mul_le_mul_right fine (Nat.mul_le_mul_left 3 (Nat.le_of_lt hn.1))
  exact length_bounds (by omega) (by omega)

/-- How many digits and zeros a decimal that reads back has, in units of `10 ^ -fractionBits`. -/
theorem length_of_readsBack (hn : Fits n) (hpos : 0 < n)
    (h : readsBack n (c * Nat.pow 10 j) = true) :
    749 < (Nat.toDigits 10 c).length + j ∧ (Nat.toDigits 10 c).length + j ≤ 1383 :=
  length_of_fine (by decide +kernel) (by decide +kernel) hn hpos h

end Measures.Binary64
