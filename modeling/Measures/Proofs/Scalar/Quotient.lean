import Measures.Formula
import Measures.Proofs.Binary64.Overflow
import Measures.Proofs.Scalar.Close
import Measures.Proofs.Scalar.Guarded

/-!
# Quotients of any numbers

Every two numbers have a quotient. Its sign is told by theirs, and its magnitude by their
magnitudes: infinite, zero, or the quotient of these as a rational number, rounded once.
-/

namespace Measures.Scalar

open Binary64

variable {x y : Binary64} {n : Nat} {hn : Fits n}

/-! ## The four kinds of quotients -/

/-- Numbers whose quotient has no value. -/
def Indeterminate (x y : Binary64) : Prop :=
  x.isNaN = true ∨ y.isNaN = true ∨ x.isZero = true ∧ y.isZero = true ∨
    x.isInfinite = true ∧ y.isInfinite = true

theorem div_indeterminate (h : Indeterminate x y) : x / y = nan := by
  change div x y = nan
  rcases h with hx | hy | ⟨hx, hy⟩ | ⟨hx, hy⟩
  · cases x <;> simp_all [isNaN, div]
  · cases y <;> cases x <;> simp_all [isNaN, div]
  · cases x <;> cases y <;> simp_all [isZero, div]
  · cases x <;> cases y <;> simp_all [isInfinite, div]

theorem div_large (h : ¬ Indeterminate x y) (hlarge : y.isZero = true ∨ x.isInfinite = true) :
    x / y = .infinite (x.isNegative != y.isNegative) := by
  simp only [Indeterminate, not_or, Bool.not_eq_true, not_and] at h
  obtain ⟨hx, hy, hzero, hinfinite⟩ := h
  change div x y = _
  cases x <;> cases y <;> simp_all [isNaN, isZero, isInfinite, div]

theorem div_small (h : ¬ Indeterminate x y) (hy : y.isInfinite = true) :
    x / y = .zero (x.isNegative != y.isNegative) := by
  simp only [Indeterminate, not_or, Bool.not_eq_true, not_and] at h
  change div x y = _
  cases x <;> cases y <;> simp_all [isNaN, isZero, isInfinite, div]

theorem div_rounded (hx : x.isFinite = true) (hy : y.isFinite = true) (hzero : y.isZero = false) :
    x / y = ofRatio (x.isNegative != y.isNegative) (x.units * one) y.units := by
  obtain ⟨s, m, hm, rfl⟩ := exists_of_isFinite hx
  obtain ⟨t, n, hn, rfl⟩ := exists_of_isFinite hy
  have hpos : 0 < n := Nat.pos_of_ne_zero (beq_eq_false_iff_ne.1 hzero)
  exact div_finite s t hm hn hpos

theorem div_cases (h : ¬ Indeterminate x y) :
    (y.isZero = true ∨ x.isInfinite = true) ∨ y.isInfinite = true ∨
      x.isFinite = true ∧ y.isFinite = true ∧ y.isZero = false := by
  simp only [Indeterminate, not_or] at h
  obtain ⟨hx, hy, -⟩ := h
  by_cases hzero : y.isZero = true
  · exact .inl (.inl hzero)
  · rw [Bool.not_eq_true] at hzero
    cases x <;> cases y <;> simp_all [isNaN, isInfinite, isFinite]

/-! ## Values and signs -/

theorem isNaN_div_iff : (x / y).isNaN = true ↔ Indeterminate x y := by
  constructor
  · intro hnan
    by_contra h
    rcases div_cases h with hlarge | hy | ⟨hx, hy, hzero⟩
    · rw [div_large h hlarge] at hnan
      cases hnan
    · rw [div_small h hy] at hnan
      cases hnan
    · rw [div_rounded hx hy hzero, Guarded.isNaN_ofRatio] at hnan
      cases hnan
  · intro h
    rw [div_indeterminate h]
    rfl

theorem isNegative_ofRatio (s : Bool) (num den : Nat) : (ofRatio s num den).isNegative = s := by
  unfold ofRatio ofUnits
  split <;> rfl

theorem isNegative_div (h : ¬ Indeterminate x y) :
    (x / y).isNegative = (x.isNegative != y.isNegative) := by
  rcases div_cases h with hlarge | hy | ⟨hx, hy, hzero⟩
  · rw [div_large h hlarge]
    rfl
  · rw [div_small h hy]
    rfl
  · rw [div_rounded hx hy hzero, isNegative_ofRatio]

/-- Magnitudes are divided as rational numbers. -/
theorem isRounded_div (hx : x.isFinite = true) (hy : y.isFinite = true) (hzero : y.isZero = false) :
    IsRounded (|x.toRat| / |y.toRat|) (x / y).abs := by
  rw [div_rounded hx hy hzero, abs_ofRatio]
  obtain ⟨s, m, hm, rfl⟩ := exists_of_isFinite hx
  obtain ⟨t, n, hn, rfl⟩ := exists_of_isFinite hy
  have hpos : 0 < n := Nat.pos_of_ne_zero (beq_eq_false_iff_ne.1 hzero)
  have hone := one_pos_rat
  have hquotient : (|(finite s m hm).toRat| / |(finite t n hn).toRat| : ℚ)
      = ((m * one : Nat) : ℚ) / n / one := by
    have hn0 : (0 : ℚ) < n := Nat.cast_pos.2 hpos
    rw [abs_toRat, abs_toRat]
    push_cast
    field_simp
  rw [hquotient]
  exact isRounded_ofRatio (m * one) hpos

/-! ## Negated sides -/

structure SameMagnitude (x' x : Binary64) : Prop where
  isNaN : x'.isNaN = x.isNaN
  isZero : x'.isZero = x.isZero
  isInfinite : x'.isInfinite = x.isInfinite
  isFinite : x'.isFinite = x.isFinite
  units : x'.units = x.units

theorem sameMagnitude_self (x : Binary64) : SameMagnitude x x := ⟨rfl, rfl, rfl, rfl, rfl⟩

theorem sameMagnitude_neg (x : Binary64) : SameMagnitude x.neg x := by
  cases x <;> exact ⟨rfl, rfl, rfl, rfl, rfl⟩

theorem neg_ofRatio (s : Bool) (num den : Nat) :
    (ofRatio s num den).neg = ofRatio (!s) num den := by
  unfold ofRatio ofUnits
  split <;> rfl

theorem isNegative_neg (h : x.isNaN = false) : x.neg.isNegative = !x.isNegative := by
  cases x with
  | nan => cases h
  | infinite s | finite s m hm => rfl

/-- Numbers of the same magnitudes, one of them negated, have a negated quotient. -/
theorem div_of_sameMagnitude {x' y' : Binary64} (hx' : SameMagnitude x' x)
    (hy' : SameMagnitude y' y) (hsign : ¬ Indeterminate x y →
      (x'.isNegative != y'.isNegative) = !(x.isNegative != y.isNegative)) :
    x' / y' = (x / y).neg := by
  have hiff : Indeterminate x' y' ↔ Indeterminate x y := by
    simp only [Indeterminate, hx'.isNaN, hx'.isZero, hx'.isInfinite, hy'.isNaN, hy'.isZero,
      hy'.isInfinite]
  by_cases h : Indeterminate x y
  · rw [div_indeterminate h, div_indeterminate (hiff.2 h)]
    rfl
  have h' := mt hiff.1 h
  rcases div_cases h with hlarge | hy | ⟨hx, hy, hzero⟩
  · rw [div_large h hlarge, div_large h', hsign h]
    · rfl
    · rw [hy'.isZero, hx'.isInfinite]
      exact hlarge
  · rw [div_small h hy, div_small h' (hy'.isInfinite.trans hy), hsign h]
    rfl
  · rw [div_rounded hx hy hzero, div_rounded (hx'.isFinite.trans hx) (hy'.isFinite.trans hy)
      (hy'.isZero.trans hzero), hx'.units, hy'.units, hsign h, neg_ofRatio]

theorem div_neg_left (x y : Binary64) : x.neg / y = (x / y).neg := by
  apply div_of_sameMagnitude (sameMagnitude_neg x) (sameMagnitude_self y)
  intro h
  simp only [Indeterminate, not_or, Bool.not_eq_true] at h
  rw [isNegative_neg h.1]
  cases x.isNegative <;> cases y.isNegative <;> rfl

theorem div_neg_right (x y : Binary64) : x / y.neg = (x / y).neg := by
  apply div_of_sameMagnitude (sameMagnitude_self x) (sameMagnitude_neg y)
  intro h
  simp only [Indeterminate, not_or, Bool.not_eq_true] at h
  rw [isNegative_neg h.2.1]
  cases x.isNegative <;> cases y.isNegative <;> rfl

/-! ## Total division -/

theorem value_quotient (x y : Binary64) :
    (Formula.quotient (.float x) (.float y)).value = .ok (.float (x / y)) := by
  change Datum.quotient (.float x) (.float y) = _
  unfold Datum.quotient
  split <;> rfl

/-- The quotient of any two numbers, without a trap. It is NaN exactly for those that have none;
else its sign is positive if the signs agree, and its magnitude is infinite above a zero or below an
infinity, zero above an infinity, and the rounded quotient of the magnitudes otherwise. -/
theorem quotient_total (x y : Binary64) :
    (Formula.quotient (.float x) (.float y)).value = .ok (.float (x / y)) ∧
      Guarded.quotient x y = .ok (x / y) ∧
      ((x / y).isNaN = true ↔ x.isNaN = true ∨ y.isNaN = true ∨
        x.isZero = true ∧ y.isZero = true ∨ x.isInfinite = true ∧ y.isInfinite = true) ∧
      ((x / y).isNaN = false →
        (x / y).isNegative = (x.isNegative != y.isNegative) ∧
        (y.isZero = true ∨ x.isInfinite = true → (x / y).abs = .infinite false) ∧
        (y.isInfinite = true → (x / y).abs = .zero false) ∧
        (x.isFinite = true → y.isFinite = true → y.isZero = false →
          IsRounded (|x.toRat| / |y.toRat|) (x / y).abs)) ∧
      x.neg / y = (x / y).neg ∧ x / y.neg = (x / y).neg := by
  refine ⟨value_quotient x y, Guarded.quotient_eq x y, isNaN_div_iff, fun hnan => ?_,
    div_neg_left x y, div_neg_right x y⟩
  have h : ¬ Indeterminate x y := by
    rw [← isNaN_div_iff, hnan]
    exact Bool.false_ne_true
  refine ⟨isNegative_div h, fun hlarge => ?_, fun hy => ?_, isRounded_div⟩
  · rw [div_large h hlarge]
    rfl
  · rw [div_small h hy]
    rfl

/-- A quotient beyond all numbers, one by a negative zero, and one by a negative infinity. -/
theorem quotient_total_ends :
    let huge := Binary64.ofBits 0x7fefffffffffffff
    let least := Binary64.ofUnits true 1
    let third := ofInt 1 / ofInt 3
    (huge / least).isNaN = false ∧ (huge / least).isNegative = true ∧
      IsRounded (|huge.toRat| / |least.toRat|) (.infinite false) ∧
      third.isNaN = false ∧ IsRounded (1 / 3) third ∧
      (ofInt (-1) / .zero true).isNaN = false ∧ (ofInt (-1) / .zero true).abs = .infinite false ∧
      (ofInt 1 / .infinite true).isNaN = false ∧ (ofInt 1 / .infinite true).abs = .zero false := by
  intro huge least third
  have hhuge : (huge / least).isNaN = false := by decide +kernel
  have hthird : third.isNaN = false := by decide +kernel
  have hzero : (ofInt (-1) / .zero true).isNaN = false := by decide +kernel
  have hinfinite : (ofInt 1 / .infinite true).isNaN = false := by decide +kernel
  obtain ⟨hsign, -, -, hrounded⟩ := (quotient_total huge least).2.2.2.1 hhuge
  have hthirdRounded := ((quotient_total (ofInt 1) (ofInt 3)).2.2.2.1 hthird).2.2.2
    (by decide +kernel) (by decide +kernel) (by decide +kernel)
  have hone : |(ofInt 1).toRat| / |(ofInt 3).toRat| = 1 / 3 := by decide +kernel
  have habs : third.abs = third := by decide +kernel
  have hover : (huge / least).abs = .infinite false := by decide +kernel
  rw [hone] at hthirdRounded
  change IsRounded (1 / 3) third.abs at hthirdRounded
  rw [habs] at hthirdRounded
  refine ⟨hhuge, ?_, ?_, hthird, hthirdRounded, hzero, ?_, hinfinite, ?_⟩
  · rw [hsign]
    decide +kernel
  · rw [← hover]
    exact hrounded (by decide +kernel) (by decide +kernel) (by decide +kernel)
  · exact ((quotient_total _ _).2.2.2.1 hzero).2.1 (.inl rfl)
  · exact ((quotient_total _ _).2.2.2.1 hinfinite).2.2.1 rfl

end Measures.Scalar
