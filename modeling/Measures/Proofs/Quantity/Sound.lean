import Measures.Proofs.Failure
import Measures.Proofs.Scalar.Wrap
import Measures.Quantity.Algebra

/-!
# Sound quantities

A quantity is sound if its base unit is one of the seven, its power is an integer that suits the
base unit, and its value is reduced if it is an angle. Making and every operation keep to that.
-/

namespace Measures

/-- Without a dimension the power is zero. `strict` is whether a power of zero also leaves no
dimension. -/
def BaseUnit.Suits (u : BaseUnit) (p : Int) (strict : Prop) : Prop :=
  (u.isNumeric = true → p = 0) ∧ (strict → p = 0 → u.isNumeric = true)

namespace Quantity

variable {strict : Prop} {q r : Quantity} {u : BaseUnit} {p : Int}

def Sound (strict : Prop) (q : Quantity) : Prop :=
  ∃ u p, q.unit = .unit u ∧ q.power = .ofInt p ∧ u.Suits p strict ∧
    (u = .degrees → Scalar.IsReduced Scalar.fullTurn q.value)

/-- An operand that is no quantity is sound. -/
def SoundOperand (strict : Prop) : Operand → Prop
  | .quantity r => r.Sound strict
  | _ => True

/-! ## Making -/

theorem sound_ofParts (h : u.Suits p strict) (property : Datum) (x : Binary64) (literal : Datum) :
    (ofParts property x u p literal).Sound strict := by
  refine ⟨u, p, rfl, rfl, h, fun hu => ?_⟩
  subst hu
  exact Scalar.wrapTurn_isReduced x

theorem exists_ofParts_of_make {property value unit power literal : Operand}
    (h : make property value unit power literal = .ok q) :
    ∃ u p d x l, unit.baseUnit = .ok u ∧ power.power = .ok p ∧ (u.isNumeric = true → p = 0) ∧
      q = ofParts d x u p l := by
  unfold make at h
  obtain ⟨u, hu, h⟩ := bind_eq_ok.1 h
  obtain ⟨p, hp, h⟩ := bind_eq_ok.1 h
  split at h
  · cases h
  · rename_i hsuits
    obtain ⟨x, -, h⟩ := bind_eq_ok.1 h
    obtain ⟨d, -, h⟩ := bind_eq_ok.1 h
    obtain ⟨l, -, h⟩ := bind_eq_ok.1 h
    refine ⟨u, p, d, x, l, hu, hp, fun hn => ?_, (Except.ok.inj h).symm⟩
    simpa [hn] using hsuits

theorem sound_make {property value unit power literal : Operand}
    (hb : strict → ∀ u, unit.baseUnit = .ok u → power.power = .ok 0 → u.isNumeric = true)
    (h : make property value unit power literal = .ok q) : q.Sound strict := by
  obtain ⟨u, p, d, x, l, hu, hp, hsuits, rfl⟩ := exists_ofParts_of_make h
  refine sound_ofParts ⟨hsuits, fun hs h0 => ?_⟩ d x l
  subst h0
  exact hb hs u hu hp

theorem suits_first (h : u.isNumeric = false) : u.Suits 1 strict :=
  ⟨fun hn => by simp [h] at hn, fun _ h0 => by omega⟩

theorem suits_zero (h : u.isNumeric = true) : u.Suits 0 strict := ⟨fun _ => rfl, fun _ _ => h⟩

theorem sound_ofPhysical {property : Datum} {value unit : Operand} (hu : u.isNumeric = false)
    (h : ofPhysical property value unit u = .ok q) : q.Sound strict := by
  unfold ofPhysical at h
  obtain ⟨x, -, h⟩ := bind_eq_ok.1 h
  obtain ⟨v, -, h⟩ := bind_eq_ok.1 h
  obtain rfl := Except.ok.inj h
  exact sound_ofParts (suits_first hu) _ _ _

theorem sound_ofKind {kind : Kind} {property : Datum} {value : Operand} {unit : Option Operand}
    (h : ofKind kind property value unit = .ok q) : q.Sound strict := by
  cases kind with
  | number | percentage | ems =>
    obtain ⟨x, -, h⟩ := bind_eq_ok.1 h
    obtain rfl := Except.ok.inj h
    exact sound_ofParts (suits_zero rfl) _ _ _
  | length | frequency | time | angle => exact sound_ofPhysical rfl h

/-! ## Operations -/

theorem sound_commit (h : u.Suits p strict) (q : Quantity) (x : Binary64) :
    (q.commit x (.unit u) (.ofInt p)).Sound strict := by
  refine ⟨u, p, rfl, rfl, h, fun hu => ?_⟩
  subst hu
  exact Scalar.wrapTurn_isReduced x

theorem Sound.commit (h : q.Sound strict) (x : Binary64) :
    (q.commit x q.unit q.power).Sound strict := by
  obtain ⟨u, p, hu, hp, hs, -⟩ := h
  rw [hu, hp]
  exact sound_commit hs q x

theorem Sound.addWith {verb : Verb} {combine : Binary64 → Binary64 → Binary64} {o : Operand}
    {next : Quantity} (h : q.Sound strict) (hn : q.addWith verb combine o = .ok next) :
    next.Sound strict := by
  unfold Quantity.addWith at hn
  obtain ⟨r, -, hn⟩ := bind_eq_ok.1 hn
  obtain ⟨_, -, hn⟩ := bind_eq_ok.1 hn
  obtain rfl := Except.ok.inj hn
  exact h.commit _

theorem Sound.mod {o : Operand} {next : Quantity} (h : q.Sound strict)
    (hn : q.mod o = .ok next) : next.Sound strict := by
  unfold Quantity.mod at hn
  obtain ⟨x, -, hn⟩ := bind_eq_ok.1 hn
  obtain rfl := Except.ok.inj hn
  exact h.commit _

/-- Products and quotients of integer powers are integer powers. -/
def Factors.Integral (f : Factors) : Prop :=
  ∀ i j, ∃ k, f.powers (.ofInt i) (.ofInt j) = .ok (.ofInt k)

theorem integral_product : Factors.product.Integral := fun i j => ⟨i + j, rfl⟩

theorem integral_quotient : Factors.quotient.Integral := fun i j => ⟨i - j, rfl⟩

theorem combineUnits_form {f : Factors} (hf : f.Integral) {v : BaseUnit} {n : Int}
    {d : UnitSlot × Power} (hu : q.unit = .unit u) (hp : q.power = .ofInt p)
    (hv : r.unit = .unit v) (hn : r.power = .ofInt n) (h : combineUnits f q r = .ok d) :
    ∃ w k, d = (.unit w, .ofInt k) := by
  obtain ⟨k, hk⟩ := hf p n
  simp only [combineUnits, hu, hp, hv, hn, hk, UnitSlot.isIn_unit, ok_bind] at h
  split at h
  · exact ⟨v, n, (Except.ok.inj h).symm⟩
  split at h
  · exact ⟨u, p, (Except.ok.inj h).symm⟩
  split at h
  · split at h
    · split at h
      · cases h
      · exact ⟨u, k, (Except.ok.inj h).symm⟩
    · split at h
      · cases h
      · exact ⟨u, p, (Except.ok.inj h).symm⟩
  split at h
  · exact ⟨v, n, (Except.ok.inj h).symm⟩
  · cases h

/-- Whatever a unit and a power are, what becomes of the unit suits the power. -/
theorem suits_of_reduceUnit {s : UnitSlot} (h : reduceUnit (.unit u) (.ofInt p) = .ok s) :
    ∃ w, s = .unit w ∧ w.Suits p strict := by
  simp only [reduceUnit, UnitSlot.isIn_unit, ok_bind, Power.isInt_ofInt] at h
  split at h
  · cases h
  · rename_i hn
    obtain rfl := Except.ok.inj h
    by_cases h0 : p = 0
    · subst h0
      cases hu : u.isNumeric with
      | true => exact ⟨u, by simp, suits_zero hu⟩
      | false => exact ⟨.number, by simp, suits_zero rfl⟩
    · have hu : u.isNumeric = false := by simpa [h0] using hn
      exact ⟨u, by simp [h0], fun hn => by simp [hu] at hn, fun _ h => absurd h h0⟩

theorem Sound.scale {f : Factors} (hf : f.Integral) {o : Operand} {next : Quantity}
    (h : q.Sound strict) (ho : SoundOperand strict o) (hn : q.scale f o = .ok next) :
    next.Sound strict := by
  cases o with
  | quantity r =>
    obtain ⟨u, p, hu, hp, -, -⟩ := h
    obtain ⟨v, n, hv, hn', -, -⟩ := ho
    obtain ⟨d, hd, hn⟩ := bind_eq_ok.1 hn
    obtain ⟨w, k, rfl⟩ := combineUnits_form hf hu hp hv hn' hd
    obtain ⟨slot, hslot, hn⟩ := bind_eq_ok.1 hn
    obtain ⟨w, rfl, hw⟩ := suits_of_reduceUnit hslot
    obtain rfl := Except.ok.inj hn
    exact sound_commit hw q _
  | datum d | list items =>
    obtain ⟨x, -, hn⟩ := bind_eq_ok.1 hn
    obtain rfl := Except.ok.inj hn
    exact h.commit _

theorem Sound.negate (h : q.Sound strict) : q.negate.Sound strict := h.commit _

theorem Sound.apply {verb : Verb} {o : Operand} {next : Quantity} (h : q.Sound strict)
    (ho : SoundOperand strict o) (hn : q.apply verb o = .ok next) : next.Sound strict := by
  cases verb with
  | add | subtract => exact h.addWith hn
  | mod => exact h.mod hn
  | multiply => exact h.scale integral_product ho hn
  | divide => exact h.scale integral_quotient ho hn

theorem Sound.applyOperator {verb : Verb} {o : Operand} {next : Quantity} (h : q.Sound strict)
    (ho : SoundOperand strict o) (hn : q.applyOperator verb o = .ok next) : next.Sound strict := by
  unfold Quantity.applyOperator at hn
  split at hn
  · cases hn
  · exact h.apply ho hn

end Quantity

end Measures
