import Measures.Proofs.Binary64.Whole
import Measures.Proofs.Scalar.Close

/-!
# Units there and back

A number that is taken to base units and back comes near to itself. Both roundings are small
against the number or against a few units, and the way back stays below the limit: it keeps the
order, so the greatest number decides.
-/

namespace Measures

open Scalar

namespace Binary64

variable {m n p : Nat}

/-! ## Counts there and back -/

theorem back_lt_limit (hp : 0 < p)
    (h : roundUnits (min greatest (roundUnits (greatest * p) one) * one) p < limit) (hm : Fits m)
    (hn : roundUnits (m * p) one < limit) :
    roundUnits (roundUnits (m * p) one * one) p < limit := by
  have hle : roundUnits (m * p) one ≤ min greatest (roundUnits (greatest * p) one) :=
    Nat.le_min.2 ⟨le_greatest (fits_roundUnits hn),
      roundUnits_le_num one_pos (Nat.mul_le_mul_right p (le_greatest hm))⟩
  exact Nat.lt_of_le_of_lt (roundUnits_le_num hp (Nat.mul_le_mul_right one hle)) h

theorem abs_back_sub_le (h : one ≤ 2 * p) (m : Nat) :
    |(roundUnits (roundUnits (m * p) one * one) p : ℚ) - m| ≤ m / 2 ^ 51 + 2 := by
  have hone := one_pos_rat
  have hp : 0 < p := by
    have := one_pos
    omega
  have hhalf : (one : ℚ) ≤ 2 * p := by exact_mod_cast h
  have hpos : (0 : ℚ) < p := Nat.cast_pos.2 hp
  have hthere := abs_roundUnits_sub_le (m * p) one_pos
  have hback := abs_roundUnits_sub_le (roundUnits (m * p) one * one) hp
  push_cast at hthere hback
  generalize (roundUnits (roundUnits (m * p) one * one) p : ℚ) = k at *
  generalize (roundUnits (m * p) one : ℚ) = n at *
  generalize (one : ℚ) = o at *
  -- The first error, in units on the way back.
  have hmiddle : |n * o / p - m| ≤ m / 2 ^ 53 + 1 := by
    have hsub : n * o / p - m = (n - m * p / o) * (o / p) := by field_simp
    have hratio : 0 < o / p := div_pos hone hpos
    have htwo : o / p ≤ 2 := (div_le_iff₀ hpos).2 hhalf
    have herror : (m * p / o / 2 ^ 53 + 1 / 2) * (o / p)
        = m / 2 ^ 53 + 1 / 2 * (o / p) := by field_simp
    rw [hsub, abs_mul, abs_of_pos hratio]
    have hle := mul_le_mul_of_nonneg_right hthere hratio.le
    linarith
  obtain ⟨hmiddle, hmiddle'⟩ := abs_le.1 hmiddle
  obtain ⟨hback, hback'⟩ := abs_le.1 hback
  have hm : (0 : ℚ) ≤ m := Nat.cast_nonneg m
  rw [abs_le]
  constructor <;> linarith

end Binary64

namespace PhysicalUnit

open Binary64

variable {k m : Nat} {hm : Fits m} {s : Bool} {x : Binary64}

/-! ## Factors -/

/-- A factor is at least a half, and the greatest number that is taken there comes back. -/
theorem exists_factor (u : PhysicalUnit) : ∃ p hp, u.factor = .finite false p hp ∧ one ≤ 2 * p ∧
    roundUnits (min greatest (roundUnits (greatest * p) one) * one) p < limit := by
  rcases u with u | u | u | u <;> cases u <;> exact exists_positive (by decide +kernel)

/-! ## Numbers there and back -/

/-- What comes back of a number, and how far from it. -/
theorem exists_back (u : PhysicalUnit) (hm : Fits m)
    (hy : (toCanonical (.finite s m hm) u).isFinite = true) :
    ∃ k hk, fromCanonical (toCanonical (.finite s m hm) u) u = .finite s k hk ∧
      |(k : ℚ) - m| ≤ m / 2 ^ 51 + 2 := by
  obtain ⟨p, hp, hfactor, hone, hback⟩ := u.exists_factor
  have hpos : 0 < p := by
    have := one_pos
    omega
  unfold toCanonical fromCanonical at *
  rw [hfactor, mul_finite, Bool.bne_false] at hy ⊢
  rcases ofRatio_cases s (m * p) one with ⟨hn, heq⟩ | heq
  · have hlt := back_lt_limit hpos hback hm hn.1
    rw [heq, div_finite s false hn hp hpos, Bool.bne_false, ofRatio_eq s hlt]
    exact ⟨_, _, rfl, abs_back_sub_le hone m⟩
  · rw [heq] at hy
    cases hy

theorem dist_of_back (h : |(k : ℚ) - m| ≤ m / 2 ^ 51 + 2) :
    Nat.dist m k ≤ 4 ∨ Nat.dist m k * 2 ^ 30 ≤ m := by
  rw [abs_sub_comm, abs_natCast_sub] at h
  rcases Nat.lt_or_ge m (2 ^ 52) with hsmall | hlarge
  · have hm : (m : ℚ) ≤ 2 ^ 52 := by exact_mod_cast hsmall.le
    have hle : (Nat.dist m k : ℚ) ≤ (4 : Nat) := by
      push_cast
      linarith
    exact .inl (Nat.cast_le.1 hle)
  · have hm : (2 ^ 52 : ℚ) ≤ m := by exact_mod_cast hlarge
    have hle : ((Nat.dist m k * 2 ^ 30 : Nat) : ℚ) ≤ m := by
      push_cast
      linarith
    exact .inr (Nat.cast_le.1 hle)

theorem lt_of_subnormal {e : Nat} (hbits : fractionBits = 52 + e)
    (h : (m / one : ℚ) < 1 / 2 ^ e) : m < Nat.pow 2 52 := by
  rw [div_lt_div_iff₀ one_pos_rat (pow_pos two_pos e), one_mul, one_eq, hbits, ← pow_mul_pow,
    ← pow_cast, ← Nat.cast_mul, Nat.cast_lt] at h
  exact Nat.lt_of_mul_lt_mul_right h

theorem value_toCanonical (x : Binary64) (u : PhysicalUnit) :
    (Formula.toCanonical (.float x) (.member (.physical u))).value
      = .ok (.float (toCanonical x u)) := rfl

/-- A number that is finite in base units comes back finite and close to what it was, with the
default tolerances. A subnormal number comes back within the absolute one. -/
theorem back_isClose (u : PhysicalUnit) (hx : x.isFinite = true) :
    ∃ y, (Formula.toCanonical (.float x) (.member (.physical u))).value = .ok (.float y) ∧
      (y.isFinite = true → ∃ z,
        (Formula.fromCanonical (.float y) (.member (.physical u))).value = .ok (.float z) ∧
          z.isFinite = true ∧
          (Formula.isClose (.float z) (.float x) none none).value = .ok (.bool true) ∧
          |z.toRat - x.toRat| ≤ |x.toRat| / 2 ^ 51 + 2 / one ∧
          (|x.toRat| < 1 / 2 ^ 1022 → |z.toRat - x.toRat| ≤ absoluteTolerance.toRat)) := by
  refine ⟨toCanonical x u, value_toCanonical x u, fun hy =>
    ⟨fromCanonical (toCanonical x u) u, rfl, ?_⟩⟩
  obtain ⟨s, m, hm, rfl⟩ := exists_of_isFinite hx
  obtain ⟨k, hk, hback, herror⟩ := u.exists_back hm hy
  have hone := one_pos_rat
  rw [hback, value_isClose_default, closeWithin_of_dist (dist_of_back herror), abs_toRat_sub,
    abs_toRat]
  refine ⟨rfl, rfl, ?_, fun hsmall => ?_⟩
  · rw [div_right_comm, ← add_div]
    exact div_le_div_of_nonneg_right herror hone.le
  · obtain ⟨a, ha, heq, hfour⟩ := exists_absoluteTolerance
    have hlt : (m : ℚ) < 2 ^ 52 := by exact_mod_cast lt_of_subnormal rfl hsmall
    have hle : (4 : ℚ) ≤ a := by exact_mod_cast hfour
    rw [heq, toRat_positive]
    exact div_le_div_of_nonneg_right (by linarith) hone.le

/-- Of the greatest number, nine tenths are within the range, and come back to it. -/
theorem back_isClose_greatest :
    (Binary64.ofBits 0x7fefffffffffffff).isFinite = true ∧ ∃ y z,
      (Formula.toCanonical (.float (.ofBits 0x7fefffffffffffff))
        (.member (.physical (.angle .grad)))).value = .ok (.float y) ∧ y.isFinite = true ∧
      (Formula.fromCanonical (.float y) (.member (.physical (.angle .grad)))).value
        = .ok (.float z) ∧ z.isFinite = true ∧
      (Formula.isClose (.float z) (.float (.ofBits 0x7fefffffffffffff)) none none).value
        = .ok (.bool true) := by
  have hx : (Binary64.ofBits 0x7fefffffffffffff).isFinite = true := by decide +kernel
  obtain ⟨y, hy, hback⟩ := back_isClose (.angle .grad) hx
  have hfinite : y.isFinite = true := by
    rw [value_toCanonical, Except.ok.injEq, Datum.float.injEq] at hy
    rw [← hy]
    decide +kernel
  obtain ⟨z, hz, hzfinite, hclose, -⟩ := hback hfinite
  exact ⟨hx, y, z, hy, hfinite, hz, hzfinite, hclose⟩

end PhysicalUnit

end Measures
