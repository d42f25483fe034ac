import Measures.Proofs.Scalar.Remainder
import Measures.Proofs.Session.Inverse

/-!
# Remainders of quantities

A remainder is stored as it is, also the one of an angle.
-/

namespace Measures

open Binary64 (ofInt)

namespace Quantity

variable {q r : Quantity} {d : Dimension}

theorem HasDimension.apply_mod (hq : q.HasDimension d) (hr : r.HasDimension d)
    (hd : d.unit.isRelativeLength = false)
    (hreduced : d.unit = .degrees → Scalar.IsReduced Scalar.fullTurn q.value) :
    q.apply .mod (.quantity r) = .ok { q with value := q.value.rem r.value } := by
  have hsettle : settle d.unit (q.value.rem r.value) = q.value.rem r.value := by
    unfold settle
    split
    · next h => exact Scalar.wrapTurn_rem (hreduced h) r.value
    · rfl
  have hmod : q.apply .mod (.quantity r) = _ := hq.mod_of_eq hr hd
  rw [hmod, hq.measured_eq, hsettle]

end Quantity

namespace Session

open Scalar

/-- The remainder of finite numbers by a finite number other than zero is exact and keeps the sign
of what is divided; by an infinity it is what is divided, and else it is NaN. The sign of the
divisor does not matter, and a remainder is its own. In a run that overwrites nothing a quantity
comes to this remainder by another one of its dimension, unless they are relative. -/
theorem remainder_exact :
    (∀ x y : Binary64, x.isFinite = true → y.isFinite = true → y.isZero = false →
      IsRemainder x y (x.rem y)) ∧
    (∀ x y : Binary64, x.isFinite = true → y.isInfinite = true → x.rem y = x) ∧
    (∀ x y : Binary64,
      x.isNaN = true ∨ y.isNaN = true ∨ x.isInfinite = true ∨ y.isZero = true → x.rem y = .nan) ∧
    (∀ x y : Binary64, x.rem y.neg = x.rem y ∧ (x.rem y).rem y = x.rem y ∧
      (Formula.remainder (.float x) (.float y)).value = .ok (.float (x.rem y)) ∧
      Guarded.remainder x y = .ok (x.rem y)) ∧
    ∀ requests : List Request, (∀ r ∈ requests, ¬ r.step.Overwrites) →
      ∀ o ∈ empty.trace requests, ∀ n m q r d, o.2.get? n = some q → o.2.get? m = some r →
        q.HasDimension d → r.HasDimension d → d.unit.isRelativeLength = false →
          ∀ registry c, IsForm .mod c → o.2.step registry (.change n (c (.named m)))
            = (.ok .changed, o.2.put n { q with value := q.value.rem r.value }) := by
  refine ⟨fun x y => isRemainder_rem, fun x y => rem_infinite, fun x y => rem_eq_nan,
    fun x y => ⟨rem_neg x y, rem_rem x y, value_remainder x y, Guarded.remainder_eq x y⟩, ?_⟩
  intro requests ho o hmem n m q r d hq hr hqd hrd hd registry c hc
  have hs : o.2.Sound False := Sound.trace all_empty ho nofun o hmem
  obtain ⟨e, hqe, hreduced⟩ := (hs n q hq).exists_reduced
  obtain rfl := hqd.unique hqe
  exact step_combined hc hq hr (hqd.apply_mod hrd hd hreduced)

/-- Two angles, of which one is divided by the other. -/
def reducing : List Request :=
  [.make (.ofFloat .angle (.int 0) (ofInt 350) none) "a",
    .make (.ofFloat .angle (.int 0) (ofInt 100) none) "b"].map fun action => ⟨.ok .empty, action⟩

/-- The quotient of the first two numbers is larger than any float. -/
theorem remainder_exact_reducing :
    let huge := Binary64.ofBits 0x7fefffffffffffff
    let least := Binary64.ofUnits true 3
    IsRemainder huge least (.ofUnits false 2) ∧
      (ofInt (-7)).rem (.infinite false) = ofInt (-7) ∧
      (Binary64.infinite true).rem least = .nan ∧
      (∀ r ∈ reducing, ¬ r.step.Overwrites) ∧ ∃ o ∈ empty.trace reducing, ∃ q r,
        o.2.get? "a" = some q ∧ o.2.get? "b" = some r ∧ q.value.rem r.value = ofInt 50 ∧
        o.2.step (.ok .empty) (.change "a" (.operator .mod (.named "b")))
          = (.ok .changed, o.2.put "a" { q with value := q.value.rem r.value }) := by
  intro huge least
  obtain ⟨hexact, hinfinite, hnan, -, hrun⟩ := remainder_exact
  have ho : ∀ r ∈ reducing, ¬ r.step.Overwrites := by
    simp [reducing, Recipe.ofFloat, Step.Overwrites]
  have hmem : _ ∈ empty.trace reducing := List.mem_of_getLast? rfl
  have hrem : huge.rem least = .ofUnits false 2 := by decide +kernel
  have hleast := hexact huge least (by decide +kernel) (by decide +kernel) (by decide +kernel)
  rw [hrem] at hleast
  refine ⟨hleast, hinfinite _ _ (by decide +kernel) rfl, hnan _ _ (.inr (.inr (.inl rfl))), ho, _,
    hmem, _, _, rfl, rfl, by decide +kernel, ?_⟩
  exact hrun reducing ho _ hmem "a" "b" _ _ ⟨.degrees, 1⟩ rfl rfl ⟨rfl, rfl⟩ ⟨rfl, rfl⟩ rfl
    (.ok .empty) _ (.inr rfl)

end Session

end Measures
