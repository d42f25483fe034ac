import Measures.Proofs.Binary64.Rounding
import Measures.Scalar

/-!
# The range of an angle

Whatever is reduced by a period comes to lie between zero and the period, and is never a negative
zero.
-/

namespace Measures.Scalar

open Binary64

/-- A number that is not finite, or one from zero up to below the period; no negative zero. -/
def IsReduced (period x : Binary64) : Prop :=
  x.isFinite = false ∨ (zero false).lessEq x = true ∧ x.less period = true ∧ x ≠ zero true

variable {s : Bool} {m n : Nat} {hn : Fits n}

theorem isReduced_of_lt {j : Nat} (hj : Fits j) (h : j < n) :
    IsReduced (.finite false n hn) (.finite false j hj) := by
  right
  refine ⟨?_, ?_, ?_⟩
  · simp [lessEq, place?, zero, signed]
  · simpa [less, place?, signed] using h
  · simp [zero]

theorem isReduced_zero (h : 0 < n) : IsReduced (.finite false n hn) (zero false) :=
  isReduced_of_lt fits_zero h

/-! ## Counts -/

theorem less_zero_finite (s : Bool) (hm : Fits m) :
    (finite s m hm).less (zero false) = (s && decide (0 < m)) := by
  cases s <;> simp [less, place?, zero, signed]

/-- The last two steps: what is not negative is held below the period, and a zero loses its
sign. -/
theorem capped_finite {j : Nat} (hj : Fits j) (hs : s = false ∨ j = 0) (hle : j ≤ n) (h : 0 < n) :
    (if lessEq (.finite false n hn) (.finite s j hj) then zero false else .finite s j hj)
        + zero false = if j = n then zero false else .finite false j hj := by
  have hreach : lessEq (.finite false n hn) (.finite s j hj) = decide (j = n) := by
    rcases hs with rfl | rfl
    · simp [lessEq, place?, signed]
      omega
    · simp [lessEq, place?, signed]
      omega
  rw [hreach]
  by_cases heq : j = n
  · simp only [heq, decide_true, if_true]
    exact add_zero_of_eq_zero false
  · simp only [heq, decide_false, Bool.false_eq_true, if_false]
    rcases Nat.eq_zero_or_pos j with rfl | hpos
    · exact add_zero_of_eq_zero s
    · obtain rfl := hs.resolve_right (Nat.ne_of_gt hpos)
      exact add_zero_of_pos false hj hpos

theorem wrap_finite (s : Bool) (hm : Fits m) (h : 0 < n) :
    wrap (.finite s m hm) (.finite false n hn) =
      let r := if s && decide (0 < m % n) then finite s (m % n) (fits_mod hm hn h) + finite false n hn
        else .finite s (m % n) (fits_mod hm hn h)
      (if lessEq (.finite false n hn) r then zero false else r) + zero false := by
  simp only [wrap, wrapAt, isFinite, Bool.not_true, Bool.false_eq_true, if_false,
      rem_finite s false hm hn h, less_zero_finite]

/-- A number that is not negative comes to its remainder, and so does a multiple of the period. -/
theorem wrap_of_nonneg (hm : Fits m) (h : 0 < n) (hs : s = false ∨ m % n = 0) :
    wrap (.finite s m hm) (.finite false n hn) = .finite false (m % n) (fits_mod hm hn h) := by
  have hlt : m % n < n := Nat.mod_lt m h
  have hsign : (s && decide (0 < m % n)) = false := by
    rcases hs with rfl | h0
    · rfl
    · simp [h0]
  rw [wrap_finite s hm h, hsign]
  simp only [Bool.false_eq_true, if_false]
  rw [capped_finite _ hs (Nat.le_of_lt hlt) h, if_neg (Nat.ne_of_lt hlt)]

theorem roundUnits_sub_le (hn : Fits n) (k : Nat) : roundUnits (n - k) 1 ≤ n :=
  roundUnits_le Nat.one_pos (dvd_of_fits hn) (by omega)

/-- Any other negative number comes to the period less its remainder, rounded. -/
theorem wrap_of_neg (hm : Fits m) (h : 0 < n) (hk : 0 < m % n) :
    wrap (.finite true m hm) (.finite false n hn) =
      if roundUnits (n - m % n) 1 = n then zero false else ofRatio false (n - m % n) 1 := by
  have hlt : m % n < n := Nat.mod_lt m h
  have hle := roundUnits_sub_le hn (m % n)
  have hsum : signed true (m % n) + signed false n = signed false (n - m % n) := by
    rw [Int.add_comm, signed_add_of_le hlt.le]
  rw [wrap_finite true hm h, Bool.true_and, decide_eq_true hk]
  simp only [if_true]
  rw [add_of_sum hsum (by omega), ofRatio_eq false (Nat.lt_of_le_of_lt hle hn.1),
    capped_finite _ (.inl rfl) hle h]

theorem wrap_cases (s : Bool) (hm : Fits m) (hn : Fits n) (h : 0 < n) :
    (s = false ∨ m % n = 0) ∧
      wrap (.finite s m hm) (.finite false n hn) = .finite false (m % n) (fits_mod hm hn h) ∨
    s = true ∧ 0 < m % n ∧ wrap (.finite s m hm) (.finite false n hn) =
      if roundUnits (n - m % n) 1 = n then zero false else ofRatio false (n - m % n) 1 := by
  by_cases hs : s = false ∨ m % n = 0
  · exact .inl ⟨hs, wrap_of_nonneg hm h hs⟩
  · obtain ⟨rfl, hk⟩ : s = true ∧ 0 < m % n := by
      simpa [Nat.pos_iff_ne_zero] using hs
    exact .inr ⟨rfl, hk, wrap_of_neg hm h hk⟩

/-! ## The range -/

theorem wrap_isReduced (x : Binary64) (h : 0 < n) :
    IsReduced (.finite false n hn) (wrap x (.finite false n hn)) := by
  cases x with
  | nan | infinite _ => exact .inl rfl
  | finite s m hm =>
    rcases wrap_cases s hm hn h with ⟨-, hwrap⟩ | ⟨-, -, hwrap⟩
    · rw [hwrap]
      exact isReduced_of_lt _ (Nat.mod_lt m h)
    · have hle := roundUnits_sub_le hn (m % n)
      rw [hwrap, ofRatio_eq false (Nat.lt_of_le_of_lt hle hn.1)]
      split
      · exact isReduced_zero h
      · exact isReduced_of_lt _ (by omega)

theorem IsReduced.exists_count {x : Binary64} (h : IsReduced (.finite false n hn) x)
    (hx : x.isFinite = true) : ∃ m hm, x = .finite false m hm ∧ m < n := by
  obtain ⟨s, m, hm, rfl⟩ := exists_of_isFinite hx
  obtain ⟨hnonneg, hlt, hzero⟩ := h.resolve_left Bool.true_eq_false_eq_False
  cases s with
  | true =>
    have hm0 : m = 0 := by
      simp [lessEq, place?, zero, signed] at hnonneg
      omega
    subst hm0
    exact absurd rfl hzero
  | false => exact ⟨m, hm, rfl, by simpa [less, place?, signed] using hlt⟩

/-- What is reduced already stays as it is. -/
theorem wrap_of_isReduced {x : Binary64} (h : 0 < n) (hx : IsReduced (.finite false n hn) x) :
    wrap x (.finite false n hn) = x := by
  cases hfinite : x.isFinite with
  | false =>
    unfold wrap wrapAt
    rw [hfinite]
    rfl
  | true =>
    obtain ⟨m, hm, rfl, hlt⟩ := hx.exists_count hfinite
    rw [wrap_of_nonneg hm h (.inl rfl)]
    simp only [Nat.mod_eq_of_lt hlt]

theorem fits_turn : Fits (360 * one) := by decide +kernel

theorem fullTurn_eq : fullTurn = .finite false (360 * one) fits_turn := ofInt_natCast 360 fits_turn

theorem turn_pos : 0 < 360 * one := by
  have := one_pos
  omega

theorem wrapTurn_isReduced (x : Binary64) : IsReduced fullTurn (wrapTurn x) := by
  unfold wrapTurn
  rw [fullTurn_eq]
  exact wrap_isReduced x turn_pos

end Measures.Scalar
