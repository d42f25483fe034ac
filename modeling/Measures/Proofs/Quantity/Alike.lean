import Measures.Proofs.Failure
import Measures.Quantity.Algebra
import Measures.Quantity.Query
import Measures.Quantity.Validation

/-!
# Quantities of one dimension

Two quantities are alike if they differ in nothing but their values. Alike quantities come to alike
ends: no value decides on a unit, a power or a failure.
-/

namespace Measures

/-- Equal in all but the value. -/
structure Quantity.Alike (q r : Quantity) : Prop where
  property : q.property = r.property
  unit : q.unit = r.unit
  power : q.power = r.power
  madeUnit : q.madeUnit = r.madeUnit
  literal : q.literal = r.literal

/-- Operands of one shape: alike quantities, any two floats, or the same datum. -/
inductive Operand.Alike : Operand → Operand → Prop
  | quantity {q r : Quantity} (h : q.Alike r) : Alike (.quantity q) (.quantity r)
  | float (x y : Binary64) : Alike (.datum (.float x)) (.datum (.float y))
  | datum (d : Datum) : Alike (.datum d) (.datum d)

namespace Operand.Alike

variable {o o' : Operand}

theorem toFloat (h : o.Alike o') : Agree Any o.toFloat o'.toFloat := by
  cases h with
  | quantity _ | float _ _ => exact .ok trivial
  | datum d => exact .any _

theorem scalar (h : o.Alike o') : Agree Any o.scalar o'.scalar := by
  cases h with
  | quantity _ => exact .error _
  | float x y => exact .ok trivial
  | datum d => exact .any _

theorem typeName (h : o.Alike o') : o.typeName = o'.typeName := by cases h <;> rfl

theorem refuses (h : o.Alike o') (verb : Verb) : verb.refuses o = verb.refuses o' := by
  cases h <;> cases verb <;> rfl

end Operand.Alike

namespace Quantity

variable {q q' r r' : Quantity} {o o' : Operand}

/-- What is alike is the same quantity with another value; whatever does not read the value is then
equal by definition. -/
theorem Alike.eq_with (h : q.Alike q') : ∃ x, q' = { q with value := x } := by
  obtain ⟨property, unit, power, madeUnit, literal⟩ := h
  cases q'
  simp_all

/-! ## Making -/

theorem alike_ofParts (property : Datum) (x y : Binary64) (u : BaseUnit) (p : Int)
    (literal : Datum) : (ofParts property x u p literal).Alike (ofParts property y u p literal) :=
  ⟨rfl, rfl, rfl, rfl, rfl⟩

theorem alike_make (h : o.Alike o') (property unit power literal : Operand) :
    Agree Alike (make property o unit power literal) (make property o' unit power literal) := by
  unfold make
  refine (Agree.same _).bind ?_
  rintro u _ rfl
  refine (Agree.same _).bind ?_
  rintro p _ rfl
  split
  · exact .error _
  · refine h.toFloat.bind fun x y _ => ?_
    refine (Agree.same _).bind ?_
    rintro property _ rfl
    refine (Agree.same _).bind ?_
    rintro literal _ rfl
    exact .ok (alike_ofParts _ _ _ _ _ _)

theorem alike_ofPhysical (h : o.Alike o') (property : Datum) (unit : Operand) (u : BaseUnit) :
    Agree Alike (ofPhysical property o unit u) (ofPhysical property o' unit u) := by
  unfold ofPhysical
  refine h.toFloat.bind fun x y _ => ?_
  refine (Agree.same _).bind ?_
  rintro v _ rfl
  exact .ok (alike_ofParts _ _ _ _ _ _)

theorem alike_ofKind (h : o.Alike o') (kind : Kind) (property : Datum) (unit : Option Operand) :
    Agree Alike (ofKind kind property o unit) (ofKind kind property o' unit) := by
  cases kind with
  | number | percentage | ems =>
    exact h.toFloat.bind fun x y _ => .ok (alike_ofParts _ _ _ _ _ _)
  | length | frequency | time | angle => exact alike_ofPhysical h _ _ _

/-! ## Operations -/

theorem Alike.commit (h : q.Alike q') (x y : Binary64) (unit : UnitSlot) (power : Power) :
    (q.commit x unit power).Alike (q'.commit y unit power) :=
  ⟨h.property, rfl, rfl, h.madeUnit, h.literal⟩

theorem Alike.checkDimension (h : q.Alike q') (hr : r.Alike r') (verb : Verb) :
    q.checkDimension r verb = q'.checkDimension r' verb := by
  obtain ⟨x, rfl⟩ := h.eq_with
  obtain ⟨y, rfl⟩ := hr.eq_with
  rfl

theorem Alike.combineUnits (h : q.Alike q') (hr : r.Alike r') (f : Factors) :
    Quantity.combineUnits f q r = Quantity.combineUnits f q' r' := by
  obtain ⟨x, rfl⟩ := h.eq_with
  obtain ⟨y, rfl⟩ := hr.eq_with
  rfl

theorem alike_otherTerm (ho : o.Alike o') (verb : Verb) :
    Agree Alike (otherTerm verb o) (otherTerm verb o') := by
  cases ho with
  | quantity h => exact .ok h
  | float _ _ | datum _ => exact .error _

theorem Alike.addWith (h : q.Alike q') (ho : o.Alike o') (verb : Verb)
    (combine : Binary64 → Binary64 → Binary64) :
    Agree Alike (q.addWith verb combine o) (q'.addWith verb combine o') := by
  unfold Quantity.addWith
  refine (alike_otherTerm ho verb).bind fun r r' hr => ?_
  rw [h.checkDimension hr]
  refine (Agree.same _).bind fun _ _ _ => .ok ?_
  rw [h.unit, h.power]
  exact h.commit _ _ _ _

theorem Alike.remainderDivisor (h : q.Alike q') (ho : o.Alike o') :
    Agree Any (q.remainderDivisor o) (q'.remainderDivisor o') := by
  obtain ⟨x, rfl⟩ := h.eq_with
  cases ho with
  | @quantity r r' hr =>
    obtain ⟨y, rfl⟩ := hr.eq_with
    unfold Quantity.remainderDivisor
    refine (Agree.same _).bind fun _ _ _ => ?_
    refine (Agree.same _).bind ?_
    rintro relative _ rfl
    exact .ite (.error _) (.ok trivial)
  | float y z =>
    unfold Quantity.remainderDivisor
    refine (Operand.Alike.float y z).scalar.bind fun a b _ => ?_
    refine .ite (.error _) (.ite ?_ (.ok trivial))
    refine (Agree.same _).bind ?_
    rintro relative _ rfl
    exact .error _
  | datum d => exact .any _

theorem Alike.mod (h : q.Alike q') (ho : o.Alike o') : Agree Alike (q.mod o) (q'.mod o') := by
  unfold Quantity.mod
  refine (h.remainderDivisor ho).bind fun x y _ => .ok ?_
  rw [h.unit, h.power]
  exact h.commit _ _ _ _

theorem Alike.scale (h : q.Alike q') (ho : o.Alike o') (f : Factors) :
    Agree Alike (q.scale f o) (q'.scale f o') := by
  have hscalar {a b : Operand} (hab : a.Alike b) :
      Agree Alike (a.scalar >>= fun x => pure (q.commit (f.combine q.value x) q.unit q.power))
        (b.scalar >>= fun x => pure (q'.commit (f.combine q'.value x) q'.unit q'.power)) := by
    refine hab.scalar.bind fun x y _ => .ok ?_
    rw [h.unit, h.power]
    exact h.commit _ _ _ _
  cases ho with
  | quantity hr =>
    simp only [Quantity.scale, h.combineUnits hr]
    refine (Agree.same _).bind ?_
    rintro ⟨unit, power⟩ _ rfl
    refine (Agree.same _).bind ?_
    rintro unit _ rfl
    exact .ok (h.commit _ _ _ _)
  | float x y => exact hscalar (.float x y)
  | datum d => exact hscalar (.datum d)

theorem Alike.negate (h : q.Alike q') : q.negate.Alike q'.negate := by
  unfold Quantity.negate
  rw [h.unit, h.power]
  exact h.commit _ _ _ _

theorem Alike.apply (h : q.Alike q') (ho : o.Alike o') (verb : Verb) :
    Agree Alike (q.apply verb o) (q'.apply verb o') := by
  cases verb with
  | add | subtract => exact h.addWith ho _ _
  | mod => exact h.mod ho
  | multiply | divide => exact h.scale ho _

theorem Alike.applyOperator (h : q.Alike q') (ho : o.Alike o') (verb : Verb) :
    Agree Alike (q.applyOperator verb o) (q'.applyOperator verb o') := by
  unfold Quantity.applyOperator Quantity.refusal
  rw [ho.refuses, ho.typeName]
  exact .ite (.error _) (h.apply ho verb)

/-! ## Questions -/

theorem Alike.compare (h : q.Alike q') (ho : o.Alike o') (function : String)
    (choose : Binary64 → Binary64 → Binary64) :
    Agree Any (q.compare function choose o) (q'.compare function choose o') := by
  obtain ⟨x, rfl⟩ := h.eq_with
  cases ho with
  | @quantity r r' hr =>
    obtain ⟨y, rfl⟩ := hr.eq_with
    exact .ite (.ok trivial) (.error _)
  | float _ _ | datum _ => exact .error _

theorem Alike.answer (h : q.Alike q') (query : Query) :
    Agree Any (query.answer q) (query.answer q') := by
  obtain ⟨x, rfl⟩ := h.eq_with
  cases query with
  | isNumber | isEms | isPercentage | isLength | isTime | isFrequency | isAngle | asDouble | asLong
  | asInt | unitName | madeUnitName | text => exact .ok trivial
  | isNumeric | isDistance | literalUnitName => exact .any _
  | fullText =>
    simp only [Query.answer, Quantity.fullText_eq]
    exact (Agree.same q.literalUnitName).any_map.any_map
  | abs | ceiling | floor | round => exact (Agree.same (q.requirePowerZero _)).any_map.any_map

theorem Alike.describe (h : q.Alike q') : Agree Any q.describe q'.describe := by
  unfold Quantity.describe
  induction Query.described with
  | nil => exact .ok trivial
  | cons query rest ih =>
    rw [List.mapM_cons, List.mapM_cons]
    refine (h.answer query).any_map.bind fun _ _ _ => ?_
    exact ih.bind fun _ _ _ => .ok trivial

theorem Alike.validate (h : q.Alike q') (registry : Except Fault Registry) :
    q.validate registry = q'.validate registry := by
  obtain ⟨x, rfl⟩ := h.eq_with
  rfl

end Quantity

end Measures
