import Measures.Proofs.Binary64.Arithmetic
import Measures.Proofs.Binary64.Whole
import Measures.Proofs.Failure
import Measures.Scalar.Guarded

/-!
# Guards are enough

No rule with guards ever traps, whatever the numbers are, and it gives what the rule without guards
gives.
-/

namespace Measures.Scalar.Guarded

open Binary64

variable {x y : Binary64} {n : Nat}

/-! ## Quotient and remainder -/

theorem equal_zero (x : Binary64) : x.equal (zero false) = x.isZero := by
  cases x with
  | nan => rfl
  | infinite s =>
    have hne : (signed s limit == 0) = false := beq_eq_false_iff_ne.2 (signed_ne_zero s limit_pos)
    exact hne
  | finite s n h =>
    rw [Bool.eq_iff_iff]
    cases s <;> simp [equal, place?, zero, signed, isZero]

theorem quotient_eq (x y : Binary64) : quotient x y = .ok (x / y) := by
  unfold quotient Machine.quotient
  rw [equal_zero, equal_zero]
  cases hy : y.isZero with
  | false => rfl
  | true =>
    rw [div_of_isZero x hy]
    cases x.isZero || x.isNaN <;> rfl

theorem isNaN_ofRatio (negative : Bool) (num den : Nat) :
    (ofRatio negative num den).isNaN = false := by
  unfold ofRatio ofUnits
  split <;> rfl

/-- A finite number has a remainder by everything but a zero or a NaN. -/
theorem isNaN_rem (hx : x.isFinite = true) (hy : y.isZero = false) (hnan : y.isNaN = false) :
    (x.rem y).isNaN = false := by
  obtain ⟨s, n, h, rfl⟩ := exists_of_isFinite hx
  cases y with
  | nan => cases hnan
  | infinite t => rfl
  | finite t m hm =>
    have hm0 : m ≠ 0 := by simpa [isZero] using hy
    rw [rem, if_neg hm0, isNaN_ofRatio]

theorem machine_remainder (hx : x.isFinite = true) (hy : y.isZero = false)
    (hnan : y.isNaN = false) : Machine.remainder x y = .ok (x.rem y) := by
  rw [Machine.remainder, isNaN_rem hx hy hnan]
  rfl

theorem rem_zero (x : Binary64) (hy : y.isZero = true) : x.rem y = .nan := by
  cases y with
  | nan | infinite _ => cases hy
  | finite t m hm =>
    have hm0 : m = 0 := by simpa [isZero] using hy
    cases x with
    | nan | infinite _ => rfl
    | finite s n h => rw [rem, if_pos hm0]

theorem remainder_eq (x y : Binary64) : remainder x y = .ok (x.rem y) := by
  unfold remainder
  rw [equal_zero]
  cases hy : y.isZero with
  | true =>
    rw [rem_zero x hy]
    rfl
  | false =>
    cases x with
    | nan => cases y <;> rfl
    | infinite s => cases y <;> rfl
    | finite s n h =>
      cases hnan : y.isNaN with
      | true =>
        cases y with
        | nan => rfl
        | infinite t => cases hnan
        | finite t m hm => cases hnan
      | false =>
        rw [machine_remainder rfl hy hnan]
        rfl

theorem wrap_eq (x : Binary64) (hy : y.isZero = false) (hnan : y.isNaN = false) :
    wrap x y = .ok (Scalar.wrap x y) := by
  unfold wrap Scalar.wrap wrapAt
  cases hx : x.isFinite with
  | false => rfl
  | true =>
    rw [machine_remainder hx hy hnan]
    rfl

theorem wrapTurn_eq (x : Binary64) : wrapTurn x = .ok (Scalar.wrapTurn x) := by
  have hturn : fullTurn.isZero = false := by decide +kernel
  have hnan : fullTurn.isNaN = false := by decide +kernel
  exact wrap_eq x hturn hnan

/-! ## Integers -/

theorem toInt_eq {part? : Binary64 → Option Int} {i : Int} (h : part? x = some i) :
    Machine.toInt part? x = .ok i := by
  rw [Machine.toInt, h, Option.elim_some]

theorem toFloat_eq {i : Int} (h : ofInt? i = some (ofInt i)) :
    Machine.toFloat i = .ok (ofInt i) := by
  rw [Machine.toFloat, h, Option.elim_some]

theorem exists_trunc (hx : x.isFinite = true) : ∃ i, x.trunc? = some i := by
  obtain ⟨s, n, h, rfl⟩ := exists_of_isFinite hx
  exact ⟨_, rfl⟩

theorem saturate_eq (w : IntWidth) (x : Binary64) : saturate w x = .ok (Scalar.saturate w x) := by
  unfold saturate Scalar.saturate
  cases hx : x.isFinite with
  | false =>
    cases x with
    | nan => rfl
    | infinite s => cases s <;> rfl
    | finite s n h => cases hx
  | true =>
    obtain ⟨i, hi⟩ := exists_trunc hx
    rw [toInt_eq hi, hi, Option.getD_some, apply_ite Except.ok, apply_ite Except.ok,
      apply_ite Except.ok]

theorem isNaN_ofInt (i : Int) : (ofInt i).isNaN = false := by
  rw [ofInt, isNaN_ofRatio]

/-- An integer that is a number is not a NaN. -/
theorem saturateInt_eq (w : IntWidth) {i : Int} (h : ofInt? i = some (ofInt i)) :
    saturateInt w i = .ok (Scalar.saturateInt w i) := by
  unfold saturateInt
  rw [toFloat_eq h, ok_bind, isNaN_ofInt]
  rfl

/-- A half is not reached by a whole number less its own integer. -/
theorem half_lessEq_zero (negative : Bool) : half.lessEq (zero negative) = false := by
  cases negative <;> decide +kernel

/-- The integer below a number is a number, and so is the next one if a half lies between. -/
theorem exists_floor (hx : x.isFinite = true) : ∃ i, x.floor? = some i ∧
    ofInt? i = some (ofInt i) ∧
    (half.lessEq (x - ofInt i) = true → ofInt? (i + 1) = some (ofInt (i + 1))) := by
  obtain ⟨s, n, h, rfl⟩ := exists_of_isFinite hx
  refine ⟨signed s n / one, floor?_finite s h, ?_⟩
  -- A whole number is its own floor; any other one has only small integers around it.
  by_cases hone : one ∣ n
  · rw [ediv_of_whole s hone]
    refine ⟨ofInt?_of_whole s h hone, fun hhalf => ?_⟩
    obtain ⟨negative, hzero⟩ := sub_whole s h hone
    rw [hzero, half_lessEq_zero] at hhalf
    cases hhalf
  · have hbounds := ediv_bounds s h hone
    exact ⟨ofInt?_of_small (by omega), fun _ => ofInt?_of_small (by omega)⟩

theorem exists_ceil (hx : x.isFinite = true) :
    ∃ i, x.ceil? = some i ∧ ofInt? i = some (ofInt i) := by
  obtain ⟨s, n, h, rfl⟩ := exists_of_isFinite hx
  have hfloor : some ((signed (!s) n).fdiv one) = some (signed (!s) n / one) :=
    floor?_finite (!s) h
  refine ⟨-(signed (!s) n / one), congrArg (Option.map (- ·)) hfloor, ?_⟩
  by_cases hone : one ∣ n
  · rw [ediv_of_whole (!s) hone, neg_signed_not]
    exact ofInt?_of_whole s h hone
  · have hbounds := ediv_bounds (!s) h hone
    exact ofInt?_of_small (by omega)

theorem floor?_of_not_finite (hx : x.isFinite = false) : x.floor? = none := by
  cases x with
  | nan | infinite _ => rfl
  | finite s n h => cases hx

theorem ceil?_of_not_finite (hx : x.isFinite = false) : x.ceil? = none := by
  cases x with
  | nan | infinite _ => rfl
  | finite s n h => cases hx

/-- Whole parts that are numbers are given as numbers. -/
theorem wholePart_eq {part? : Binary64 → Option Int}
    (hnone : x.isFinite = false → part? x = none)
    (hsome : x.isFinite = true → ∃ i, part? x = some i ∧ ofInt? i = some (ofInt i)) :
    wholePart part? x = .ok (((part? x).map ofInt).getD x) := by
  unfold wholePart
  cases hx : x.isFinite with
  | false =>
    rw [hnone hx]
    rfl
  | true =>
    obtain ⟨i, hi, hnumber⟩ := hsome hx
    rw [toInt_eq hi, ok_bind, toFloat_eq hnumber, hi, Option.map_some, Option.getD_some]
    rfl

theorem floor_eq (x : Binary64) : floor x = .ok ((x.floor?.map ofInt).getD x) := by
  refine wholePart_eq floor?_of_not_finite fun hx => ?_
  obtain ⟨i, hi, hnumber, -⟩ := exists_floor hx
  exact ⟨i, hi, hnumber⟩

theorem ceiling_eq (x : Binary64) : ceiling x = .ok ((x.ceil?.map ofInt).getD x) :=
  wholePart_eq ceil?_of_not_finite exists_ceil

theorem roundHalfUp_eq {i : Int} (hi : x.floor? = some i) (h : ofInt? i = some (ofInt i)) :
    roundHalfUp x = .ok (if half.lessEq (x - ofInt i) then i + 1 else i) := by
  unfold roundHalfUp
  rw [toInt_eq hi, ok_bind, toFloat_eq h, ok_bind]
  rfl

theorem round_eq (x : Binary64) : round x = .ok (match nearest? x with
    | some i => Scalar.saturateInt .bits64 i
    | none => Scalar.saturate .bits64 x) := by
  unfold round nearest?
  cases hx : x.isFinite with
  | false =>
    rw [floor?_of_not_finite hx]
    exact saturate_eq .bits64 x
  | true =>
    obtain ⟨i, hi, hnumber, hnext⟩ := exists_floor hx
    have hrounded : let rounded := if half.lessEq (x - ofInt i) then i + 1 else i
        ofInt? rounded = some (ofInt rounded) := by
      split
      · next hhalf => exact hnext hhalf
      · exact hnumber
    rw [roundHalfUp_eq hi hnumber, ok_bind, hi, Option.map_some]
    exact saturateInt_eq .bits64 hrounded

end Measures.Scalar.Guarded
