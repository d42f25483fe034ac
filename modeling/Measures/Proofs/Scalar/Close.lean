import Measures.Formula
import Measures.Proofs.Binary64.Error
import Measures.Proofs.Failure
import Measures.Proofs.Scalar.Wrap

/-!
# Numbers that are close

Two numbers of one sign are close if their counts are: the distance is rounded as the tolerances
are, and rounding keeps the order.
-/

namespace Measures.Scalar

open Binary64

variable {k m n : Nat} {hk : Fits k} {hm : Fits m} {s : Bool} {x y : Binary64}

/-! ## Distances -/

theorem abs_ofRatio (s : Bool) (num den : Nat) :
    (ofRatio s num den).abs = ofRatio false num den := by
  unfold ofRatio ofUnits
  split <;> rfl

theorem abs_sub_finite (s : Bool) (hm : Fits m) (hk : Fits k) :
    (finite s m hm - finite s k hk).abs = ofRatio false (Nat.dist m k) 1 := by
  change (addFinite s m (!s) k).abs = _
  have hdist : (signed s m + signed (!s) k).natAbs = Nat.dist m k := by
    unfold Nat.dist
    cases s <;> simp [signed] <;> omega
  simp only [addFinite]
  split
  · next h =>
    rw [← hdist, h]
    exact (ofRatio_of_fits false fits_zero).symm
  · rw [abs_ofRatio, hdist]

theorem abs_mul_finite (hn : Fits n) (hm : Fits m) :
    (finite false n hn * finite s m hm).abs = ofRatio false (n * m) one := by
  rw [mul_finite, abs_ofRatio]

/-! ## The default tolerances -/

theorem exists_relativeTolerance :
    ∃ n hn, relativeTolerance = .finite false n hn ∧ one ≤ n * 2 ^ 30 :=
  exists_positive (by decide +kernel)

theorem exists_absoluteTolerance :
    ∃ n hn, absoluteTolerance = .finite false n hn ∧ 4 ≤ n :=
  exists_positive (by decide +kernel)

/-- A distance of four units is within the absolute tolerance, and one part in 2³⁰ within the
relative one. -/
theorem closeWithin_of_dist (h : Nat.dist m k ≤ 4 ∨ Nat.dist m k * 2 ^ 30 ≤ m) :
    closeWithin (finite s k hk) (finite s m hm) relativeTolerance absoluteTolerance = true := by
  obtain ⟨a, ha, habsolute, hfour⟩ := exists_absoluteTolerance
  obtain ⟨r, hr, hrelative, hpart⟩ := exists_relativeTolerance
  have hfinite : ¬((finite s k hk).isInfinite || (finite s m hm).isInfinite) = true :=
    Bool.false_ne_true
  unfold closeWithin
  by_cases heq : (finite s k hk).equal (finite s m hm) = true
  · rw [if_pos heq]
  rw [if_neg heq, if_neg hfinite, abs_sub_finite, habsolute, hrelative, abs_mul_finite,
    ← ofRatio_of_fits false ha]
  rcases h with h | h
  · have hless := ofRatio_lessEq Nat.one_pos Nat.one_pos (Nat.mul_le_mul_right 1 (h.trans hfour))
    simp only [hless, Bool.or_true]
  · have hdist : Nat.dist m k * one ≤ r * m * 1 :=
      calc Nat.dist m k * one
          ≤ Nat.dist m k * (r * 2 ^ 30) := Nat.mul_le_mul_left _ hpart
        _ = r * (Nat.dist m k * 2 ^ 30) := Nat.mul_left_comm _ _ _
        _ ≤ r * m * 1 := by
          rw [Nat.mul_one]
          exact Nat.mul_le_mul_left _ h
    have hless := ofRatio_lessEq Nat.one_pos Binary64.one_pos hdist
    simp only [hless, Bool.true_or]

theorem real_float (x : Binary64) : (Datum.float x).real = .ok x := rfl

theorem value_isClose_default (x y : Binary64) :
    (Formula.isClose (.float x) (.float y) none none).value
      = .ok (.bool (closeWithin x y relativeTolerance absoluteTolerance)) := by
  obtain ⟨n, hn, hrelative, -⟩ := exists_relativeTolerance
  obtain ⟨m, hm, habsolute, -⟩ := exists_absoluteTolerance
  have hsign : (relativeTolerance.less (.zero false) || absoluteTolerance.less (.zero false))
      = false := by
    rw [hrelative, habsolute, less_zero_finite, less_zero_finite]
    rfl
  have hclose : isClose x y relativeTolerance absoluteTolerance
      = .ok (closeWithin x y relativeTolerance absoluteTolerance) := by
    rw [isClose, hsign]
    exact if_neg Bool.false_ne_true
  simp only [Formula.value, Option.getD_none, real_float, ok_bind, hclose]
  generalize closeWithin x y relativeTolerance absoluteTolerance = close
  rfl

end Measures.Scalar
