import Measures.Proofs.Failure
import Measures.Quantity.Make

/-!
# Kinds and the units they are given in

A quantity of a physical kind takes its factor from the unit argument and its base unit from the
kind. The two agree where the unit is one of the kind, and nothing asks for that.
-/

namespace Measures.Quantity

variable {property : Datum} {value unit : Operand} {base : BaseUnit} {kind : Kind} {q : Quantity}

/-- A value that converts to a number and any physical unit are enough. -/
theorem ofPhysical_eq_ok_iff :
    ofPhysical property value unit base = .ok q ↔ ∃ x u, value.toFloat = .ok x ∧
      unit.physical = .ok u ∧
      q = ofParts property (u.toCanonical x) base 1 (.member (.physical u)) := by
  unfold ofPhysical
  constructor
  · intro h
    obtain ⟨x, hx, h⟩ := bind_eq_ok.1 h
    obtain ⟨u, hu, h⟩ := bind_eq_ok.1 h
    exact ⟨x, u, hx, hu, (Except.ok.inj h).symm⟩
  · rintro ⟨x, u, hx, hu, rfl⟩
    rw [hx, hu]
    rfl

theorem ofKind_of_isPhysical (hk : kind.base.isPhysical = true) :
    ofKind kind property value (some unit) = ofPhysical property value unit kind.base := by
  cases kind with
  | number | percentage | ems => cases hk
  | length | frequency | time | angle => rfl

/-- Whatever is made of a value in a unit is stored in the base unit of that unit. -/
def KeepsUnit (kind : Kind) (property : Datum) (value unit : Operand) : Prop :=
  ∀ q, ofKind kind property value (some unit) = .ok q →
    (unit.physical.map fun u => UnitSlot.unit u.base) = .ok q.unit

/-- A physical kind stores what it makes as its own base unit, the number being counted in the base
unit of the unit argument. It keeps the unit exactly if it makes nothing or the argument is a unit
of its own kind. -/
theorem keepsUnit_iff (hk : kind.base.isPhysical = true) :
    (∀ q, ofKind kind property value (some unit) = .ok q ↔ ∃ x u, value.toFloat = .ok x ∧
      unit.physical = .ok u ∧
      q = ofParts property (u.toCanonical x) kind.base 1 (.member (.physical u))) ∧
    (KeepsUnit kind property value unit ↔
      (∃ f, ofKind kind property value (some unit) = .error f) ∨
        ∃ u, unit.physical = .ok u ∧ u.base = kind.base) := by
  rw [KeepsUnit, ofKind_of_isPhysical hk]
  refine ⟨fun q => ofPhysical_eq_ok_iff, ?_⟩
  constructor
  · intro h
    cases hq : ofPhysical property value unit kind.base with
    | error f => exact .inl ⟨f, rfl⟩
    | ok q =>
      obtain ⟨x, u, -, hu, rfl⟩ := ofPhysical_eq_ok_iff.1 hq
      have hbase := h _ hq
      rw [hu] at hbase
      exact .inr ⟨u, hu, UnitSlot.unit.inj (Except.ok.inj hbase)⟩
  · rintro (⟨f, hf⟩ | ⟨u, hu, hbase⟩) q hq
    · rw [hf] at hq
      cases hq
    · obtain ⟨x, v, -, hv, rfl⟩ := ofPhysical_eq_ok_iff.1 hq
      obtain rfl := Except.ok.inj (hu.symm.trans hv)
      rw [hu, ← hbase]
      rfl

def inches : Operand := .datum (.member (.physical (.length .inch)))

def hertz : Operand := .datum (.member (.physical (.frequency .hz)))

theorem keepsUnit_inches :
    Kind.length.base.isPhysical = true ∧
      KeepsUnit .length (.int 5) (.datum (.float (.ofInt 440))) inches :=
  ⟨rfl, (keepsUnit_iff rfl).2.2 (.inr ⟨_, rfl, rfl⟩)⟩

/-- As many millipoints as there were hertz. -/
theorem not_keepsUnit_hertz :
    ¬ KeepsUnit .length (.int 5) (.datum (.float (.ofInt 440))) hertz := by
  intro h
  have hbase := h _ (ofPhysical_eq_ok_iff.2 ⟨_, _, rfl, rfl, rfl⟩)
  cases hbase

end Measures.Quantity
