import Measures.Formula
import Measures.Proofs.Binary64.TowardZero
import Measures.Proofs.Binary64.Whole
import Measures.Proofs.Scalar.Guarded

/-!
# Integers of a width

A number comes to its integer part, held between the ends of the width. It does so in order, and
without a loss where the integer part is in the width.
-/

namespace Measures

namespace Scalar.IntWidth

variable {w : IntWidth} {i j : Int}

/-- An integer, at most at the ends of a width. -/
def clamp (w : IntWidth) (i : Int) : Int :=
  Max.max (-2 ^ (w.bits - 1)) (Min.min i (2 ^ (w.bits - 1) - 1))

theorem low_eq (w : IntWidth) : w.low = -2 ^ (w.bits - 1) := by
  cases w <;> rfl

theorem high_eq (w : IntWidth) : w.high = 2 ^ (w.bits - 1) - 1 := by
  cases w <;> rfl

theorem low_lt_high (w : IntWidth) : w.low < w.high := by
  cases w <;> decide

theorem clamp_eq (w : IntWidth) (i : Int) : w.clamp i = Max.max w.low (Min.min i w.high) := by
  rw [clamp, low_eq, high_eq]

theorem clamp_of_mem (hlow : w.low ≤ i) (hhigh : i ≤ w.high) : w.clamp i = i := by
  rw [clamp_eq]
  omega

theorem clamp_of_le (h : i ≤ w.low) : w.clamp i = w.low := by
  rw [clamp_eq]
  omega

theorem clamp_of_ge (h : w.high ≤ i) : w.clamp i = w.high := by
  have := w.low_lt_high
  rw [clamp_eq]
  omega

theorem clamp_le (h : i ≤ j) : w.clamp i ≤ w.clamp j := by
  unfold clamp
  omega

/-- A narrow width is not wider for having passed through a wide one. -/
theorem clamp_clamp (i : Int) : bits32.clamp (bits64.clamp i) = bits32.clamp i := by
  simp only [clamp, bits]
  omega

end Scalar.IntWidth

open Scalar

/-- The integer that a number comes to in a width: an infinity is at an end, and NaN is zero. -/
def Binary64.integer (w : IntWidth) : Binary64 → Int
  | .nan => 0
  | .infinite s => if s then -2 ^ (w.bits - 1) else 2 ^ (w.bits - 1) - 1
  | .finite s n hn => w.clamp (towardZero (finite s n hn).toRat)

namespace Scalar

open Binary64 IntWidth

variable {w : IntWidth} {x y : Binary64} {i : Int}

theorem integer_infinite (s : Bool) (w : IntWidth) :
    (infinite s).integer w = if s then w.low else w.high := by
  rw [integer, low_eq, high_eq]

/-! ## Saturation -/

/-- Held against the ends first, a number has lost nothing when its fraction is dropped. -/
theorem saturate_finite (hx : x.isFinite = true) (w : IntWidth) :
    saturate w x = w.clamp (towardZero x.toRat) := by
  have hnan : x.isNaN = false := by
    obtain ⟨s, n, hn, rfl⟩ := exists_of_isFinite hx
    rfl
  unfold saturate
  simp only [hnan, lessInt_eq hx, greaterInt_eq hx, trunc?_eq hx, Option.getD_some,
    Bool.not_eq_true', decide_eq_false_iff_not, not_lt, Bool.false_eq_true, if_false]
  split
  · next h =>
    have hle := towardZero_le h
    rw [towardZero_intCast] at hle
    exact (clamp_of_ge hle).symm
  · next hhigh =>
    split
    · next h =>
      have hle := towardZero_le h
      rw [towardZero_intCast] at hle
      exact (clamp_of_le hle).symm
    · next hlow =>
      have hle := towardZero_le (not_le.1 hhigh).le
      have hge := towardZero_le (not_le.1 hlow).le
      rw [towardZero_intCast] at hle hge
      exact (clamp_of_mem hge hle).symm

theorem saturateInt_eq (w : IntWidth) (i : Int) : saturateInt w i = w.clamp i := by
  unfold saturateInt
  split
  · next h => exact (clamp_of_ge h).symm
  · split
    · next h => exact (clamp_of_le h).symm
    · exact (clamp_of_mem (by omega) (by omega)).symm

theorem saturate_eq (w : IntWidth) (x : Binary64) : saturate w x = x.integer w := by
  cases x with
  | nan => rfl
  | infinite s =>
    rw [integer_infinite]
    cases s <;> rfl
  | finite s n hn => exact saturate_finite rfl w

theorem value_toInteger (x : Binary64) (w : IntWidth) :
    (Formula.toInteger (.float x) (some (.int w.bits))).value = .ok (.int (x.integer w)) := by
  have hwidth : (Datum.int w.bits).intWidth = .ok w := by
    cases w <;> simp [Datum.intWidth, bits]
  simp only [Formula.value, Option.getD_some, hwidth, ok_bind]
  rw [← saturate_eq]
  rfl

/-! ## Order -/

/-- The infinities lie beyond the ends of every width. -/
theorem integer_of_place {p : Int} (h : x.place? = some p) (w : IntWidth) :
    x.integer w = w.clamp (towardZero (p / one)) := by
  cases x with
  | nan => cases h
  | infinite s =>
    obtain rfl := Option.some.inj h
    have hhigh : w.high ≤ (limit / one : Nat) := by cases w <;> decide +kernel
    have hlow : -(limit / one : Nat) ≤ w.low := by cases w <;> decide +kernel
    rw [towardZero_signed, integer_infinite]
    unfold signed
    split
    · exact (clamp_of_le hlow).symm
    · exact (clamp_of_ge hhigh).symm
  | finite s n hn =>
    obtain rfl := Option.some.inj h
    rfl

theorem integer_le (h : x.lessEq y = true) (w : IntWidth) : x.integer w ≤ y.integer w := by
  unfold lessEq at h
  split at h
  · next p q hp hq =>
    rw [integer_of_place hp, integer_of_place hq]
    apply clamp_le
    apply towardZero_le
    rw [div_le_div_iff_of_pos_right one_pos_rat, Int.cast_le]
    exact of_decide_eq_true h
  · cases h

/-! ## Integers back from numbers -/

theorem toRat_ofInt (h : Fits (i.natAbs * one)) : (ofInt i).toRat = i := by
  rw [ofInt_of_fits h, toRat_finite, signed_natAbs, Int.cast_mul, Int.cast_natCast,
    mul_div_cancel_right₀ _ one_pos_rat.ne']

theorem saturate_ofInt (h : i.natAbs ≤ 2 ^ 53) (w : IntWidth) :
    saturate w (ofInt i) = w.clamp i := by
  have hfits : Fits (i.natAbs * one) := fits_whole h
  have hfinite : (ofInt i).isFinite = true := by
    rw [ofInt_of_fits hfits]
    rfl
  rw [saturate_finite hfinite, toRat_ofInt hfits, towardZero_intCast]

end Scalar

end Measures
