import Measures.Proofs.Failure
import Measures.Quantity.Validation

/-!
# When a quantity is a legal value

Base unit and power decide on the category. With it the registry is asked for the property, and the
property has to allow the category.
-/

namespace Measures.Quantity

variable {q : Quantity} {r : Registry} {u : BaseUnit} {p : Int} {c : Category}

theorem category_eq (hu : q.unit = .unit u) (hp : q.power = .ofInt p) :
    q.category = match u.demand? with
      | none => .error .unresolvedEms
      | some demand =>
        if p = demand.power then .ok demand.category
        else .error (.unitPower demand.label (.int p)) := by
  unfold category
  rw [hu]
  cases u with
  | ems => rfl
  | _ =>
    simp only [UnitSlot.holds, UnitSlot.resolve, hasPower, hp, Power.isInt_ofInt, beq_iff_eq,
      Power.datum_ofInt, BaseUnit.demand?]
    rfl

theorem checkCategory_eq_ok_iff :
    q.checkCategory c r = .ok () ↔
      ∃ d, r.get q.property = .ok d ∧ d.categories.contains c = true := by
  unfold checkCategory
  rw [bind_eq_ok]
  refine exists_congr fun d => and_congr_right fun _ => ?_
  cases d.categories.contains c <;> simp [pure, Except.pure]

theorem validate_eq_ok_iff :
    q.validate (.ok r) = .ok () ↔ ∃ c, q.category = .ok c ∧
      ∃ d, r.get q.property = .ok d ∧ d.categories.contains c = true := by
  unfold validate
  simp only [bind_eq_ok, ok_bind, checkCategory_eq_ok_iff]

end Measures.Quantity
