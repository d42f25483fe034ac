import Measures.Proofs.Quantity.Dimension
import Measures.Proofs.Quantity.Sound
import Measures.Proofs.Quantity.Validation
import Measures.Proofs.Scalar.Guarded
import Measures.Quantity.Query

/-!
# What operations on quantities can fail with

A sound quantity leaves an operation one kind of failure: that the operand does not go with it.
Nothing else that is checked on the way can ever be met.
-/

namespace Measures

/-- The kind of failure that says that two operands do not go together. -/
def Verb.mismatch : Verb → FaultKind
  | .add | .subtract | .mod => .incompatibleOperands
  | .multiply | .divide => .incompatibleUnits

theorem Verb.refuses_quantity (verb : Verb) (r : Quantity) :
    verb.refuses (.quantity r) = false := by cases verb <;> rfl

namespace Quantity

variable {strict : Prop} {q r : Quantity} {d e : Dimension} {u : BaseUnit} {p n : Int} {verb : Verb}

theorem Sound.exists_dimension (h : q.Sound strict) : ∃ d, q.HasDimension d ∧ d.IsLegal := by
  obtain ⟨u, p, hu, hp, hsuits, -⟩ := h
  exact ⟨⟨u, p⟩, ⟨hu, hp⟩, hsuits.1⟩

/-! ## Sum, difference, remainder -/

theorem failsAs_checkDimension (q r : Quantity) (verb : Verb) :
    FailsAs .incompatibleOperands (q.checkDimension r verb) := by
  unfold checkDimension
  split
  · exact failsAs_error rfl
  split
  · exact failsAs_error rfl
  · exact failsAs_ok ()

theorem failsAs_addWith (verb : Verb) (combine : Binary64 → Binary64 → Binary64)
    (q r : Quantity) : FailsAs .incompatibleOperands (q.addWith verb combine (.quantity r)) :=
  (failsAs_checkDimension q r verb).bind fun _ _ => failsAs_ok _

theorem failsAs_remainderDivisor (hu : q.unit = .unit u) (r : Quantity) :
    FailsAs .incompatibleOperands (q.remainderDivisor (.quantity r)) := by
  refine (failsAs_checkDimension q r .mod).bind fun _ _ => ?_
  rw [hu, UnitSlot.isIn_unit, ok_bind]
  split
  · exact failsAs_error rfl
  · exact failsAs_ok r.value

theorem failsAs_remainderDivisor_float (hu : q.unit = .unit u) (x : Binary64) :
    FailsAs .incompatibleOperands (q.remainderDivisor (.datum (.float x))) := by
  have hscalar : (Operand.datum (.float x)).scalar = .ok x := rfl
  simp only [remainderDivisor, hscalar, ok_bind, error_bind, hu, UnitSlot.isIn_unit]
  split
  · exact failsAs_error rfl
  split
  · exact failsAs_error rfl
  · exact failsAs_ok x

theorem failsAs_mod {o : Operand} (h : FailsAs .incompatibleOperands (q.remainderDivisor o)) :
    FailsAs .incompatibleOperands (q.mod o) := h.bind fun _ _ => failsAs_ok _

/-! ## Product and quotient -/

section Factors

variable {f : Factors} {combine : Int → Int → Int}
  (hf : ∀ i j, f.powers (.ofInt i) (.ofInt j) = .ok (.ofInt (combine i j)))

include hf

theorem HasDimension.failsAs_combineUnits (hq : q.HasDimension d) (hr : r.HasDimension e) :
    FailsAs .incompatibleUnits (combineUnits f q r) := by
  intro fault h
  simp only [combineUnits, hq.unit, hq.power, hr.unit, hr.power, hf, UnitSlot.isIn_unit, ok_bind]
    at h
  split at h
  · cases h
  split at h
  · cases h
  split at h
  · split at h
    · split at h
      · cases h
        rfl
      · cases h
    · split at h
      · cases h
        rfl
      · cases h
  split at h
  · cases h
  · cases h
    rfl

/-- What two factors combine to always passes the check of its power. -/
theorem Sound.exists_reduceUnit (hq : q.Sound strict) (hr : r.Sound strict) {unit : UnitSlot}
    {power : Power} (h : combineUnits f q r = .ok (unit, power)) :
    ∃ s, reduceUnit unit power = .ok s := by
  obtain ⟨d, hd, hdlegal⟩ := hq.exists_dimension
  obtain ⟨e, he, helegal⟩ := hr.exists_dimension
  obtain ⟨g, hjoins, rfl, rfl⟩ := hd.joins hf he h
  exact ⟨_, reduceUnit_eq (hdlegal.joins helegal hjoins)⟩

theorem Sound.failsAs_scale (hq : q.Sound strict) (hr : r.Sound strict) :
    FailsAs .incompatibleUnits (q.scale f (.quantity r)) := by
  obtain ⟨d, hd, -⟩ := hq.exists_dimension
  obtain ⟨e, he, -⟩ := hr.exists_dimension
  refine (hd.failsAs_combineUnits hf he).bind fun ⟨unit, power⟩ hcombine => ?_
  obtain ⟨s, hs⟩ := hq.exists_reduceUnit hf hr hcombine
  change FailsAs _ (reduceUnit unit power >>= _)
  rw [hs, ok_bind]
  exact failsAs_ok _

end Factors

/-! ## All operations -/

theorem Sound.failsAs_apply (hq : q.Sound strict) (hr : r.Sound strict) (verb : Verb) :
    FailsAs verb.mismatch (q.apply verb (.quantity r)) := by
  have ⟨u, _, hu, _⟩ := hq
  cases verb with
  | add | subtract => exact failsAs_addWith _ _ q r
  | mod => exact failsAs_mod (failsAs_remainderDivisor hu r)
  | multiply => exact hq.failsAs_scale (f := .product) (fun _ _ => rfl) hr
  | divide => exact hq.failsAs_scale (f := .quotient) (fun _ _ => rfl) hr

theorem Sound.failsAs_apply_float (hq : q.Sound strict) {x : Binary64}
    (hv : verb.refuses (.datum (.float x)) = false) :
    FailsAs verb.mismatch (q.apply verb (.datum (.float x))) := by
  obtain ⟨u, -, hu, -⟩ := hq
  cases verb with
  | add | subtract => cases hv
  | mod => exact failsAs_mod (failsAs_remainderDivisor_float hu x)
  | multiply | divide => exact failsAs_ok _

theorem applyOperator_of_not_refuses {o : Operand} (h : verb.refuses o = false) :
    q.applyOperator verb o = q.apply verb o := by
  rw [applyOperator, h]
  rfl

/-- A sum or a difference does not take a number in either form. -/
theorem failsIff_of_refuses {x : Binary64} (h : verb.refuses (.datum (.float x)) = true)
    (q : Quantity) :
    FailsIff .wrongType True (q.apply verb (.datum (.float x))) ∧
      FailsIff .wrongType True (q.applyOperator verb (.datum (.float x))) := by
  constructor
  · cases verb with
    | add | subtract => exact failsIff_error rfl
    | mod | multiply | divide => cases h
  · rw [applyOperator, h]
    exact failsIff_error rfl

/-! ## Functions of power zero -/

theorem hasPower_iff (hp : q.power = .ofInt p) : q.hasPower n = true ↔ q.power = .ofInt n := by
  rw [hasPower, hp, Power.isInt_ofInt, beq_iff_eq]
  constructor
  · rintro rfl
    rfl
  · rintro ⟨⟩
    rfl

theorem failsIff_requirePowerZero (hp : q.power = .ofInt p) (function : String) :
    FailsIff .dimension (q.power ≠ .ofInt 0) (q.requirePowerZero function) := by
  rw [ne_eq, ← hasPower_iff hp]
  exact failsIff_ite rfl ()

theorem failsIff_compare (hp : q.power = .ofInt p) (hn : r.power = .ofInt n) (function : String)
    (choose : Binary64 → Binary64 → Binary64) :
    FailsIff .dimension (q.power ≠ .ofInt 0 ∨ r.power ≠ .ofInt 0)
      (compare function choose q (.quantity r)) := by
  have hboth : (q.power.same r.power && q.hasPower 0) = true
      ↔ q.power = .ofInt 0 ∧ r.power = .ofInt 0 := by
    rw [← hasPower_iff hp, ← hasPower_iff hn, hasPower, hasPower, hp, hn]
    simp only [Power.same_ofInt, Power.isInt_ofInt, Bool.and_eq_true, beq_iff_eq]
    omega
  rw [← not_and_or, ← hboth]
  exact failsIff_ite rfl _

/-! ## Questions -/

theorem answers_of_described (hu : q.unit = .unit u) {v : BaseUnit} (hv : q.madeUnit = .unit v)
    {query : Query} (h : query ∈ Query.described) : ∃ d, query.answer q = .ok d := by
  have hname : q.literalUnitName = .ok (literalName v q.literal) := literalUnitName_unit hv
  cases query with
  | isNumeric =>
    rw [Query.answer, isNumeric, hu, UnitSlot.isIn_unit]
    exact ⟨_, rfl⟩
  | isDistance =>
    rw [Query.answer, isDistance, hu, UnitSlot.isIn_unit]
    exact ⟨_, rfl⟩
  | literalUnitName =>
    rw [Query.answer, hname]
    exact ⟨_, rfl⟩
  | fullText =>
    rw [Query.answer, fullText_eq, hname]
    exact ⟨_, rfl⟩
  | abs | ceiling | floor | round => exact absurd h (by decide)
  | _ => exact ⟨_, rfl⟩

theorem failsIff_of_not_described (hp : q.power = .ofInt p) {query : Query}
    (h : query ∉ Query.described) :
    FailsIff .dimension (q.power ≠ .ofInt 0) (query.answer q) := by
  cases query with
  | abs | ceiling | floor | round => exact ((failsIff_requirePowerZero hp _).map _).map _
  | _ => exact absurd (by decide) h

/-! ## Names of units -/

theorem failsAs_category (hu : q.unit = .unit u) (hp : q.power = .ofInt p) :
    FailsAs .propertyValidation q.category := by
  rw [category_eq hu hp]
  split
  · exact failsAs_error rfl
  split
  · exact failsAs_ok _
  · exact failsAs_error rfl

/-- Both base units are known wherever one is looked up. -/
structure Recognized (q : Quantity) : Prop where
  names : ∃ u v : BaseUnit, q.unitName = u.displayName ∧ q.madeUnitName = v.displayName ∧
    q.literalUnitName = .ok (literalName v q.literal)
  category : FailsAs .propertyValidation q.category

theorem Sound.recognized (h : q.Sound strict) {v : BaseUnit} (hv : q.madeUnit = .unit v) :
    q.Recognized := by
  obtain ⟨u, p, hu, hp, -, -⟩ := h
  refine ⟨⟨u, v, ?_, ?_, ?_⟩, failsAs_category hu hp⟩
  · rw [unitName, hu, UnitSlot.name_unit]
  · rw [madeUnitName, hv, UnitSlot.name_unit]
  · exact literalUnitName_unit hv

/-! ## Rules with guards -/

/-- The rules with guards come to what the operations take from the rules without, and never
trap. -/
structure Untrapped (q : Quantity) : Prop where
  quotient (y : Binary64) : Scalar.Guarded.quotient q.value y = .ok (q.value / y)
  remainder (y : Binary64) : Scalar.Guarded.remainder q.value y = .ok (q.value.rem y)
  commit (x : Binary64) (power : Power) :
    Scalar.Guarded.wrapTurn x = .ok (q.commit x (.unit .degrees) power).value
  asLong : Scalar.Guarded.saturate .bits64 q.value = .ok q.asLong
  asInt : Scalar.Guarded.saturate .bits32 q.value = .ok q.asInt
  ceiling : ∃ x, Scalar.Guarded.ceiling q.value = .ok x ∧
    q.ceiling = (q.requirePowerZero "ceiling").map fun _ => x
  floor : ∃ x, Scalar.Guarded.floor q.value = .ok x ∧
    q.floor = (q.requirePowerZero "floor").map fun _ => x
  round : ∃ i, Scalar.Guarded.round q.value = .ok i ∧
    q.round = (q.requirePowerZero "round").map fun _ => i

theorem untrapped (q : Quantity) : q.Untrapped where
  quotient := Scalar.Guarded.quotient_eq q.value
  remainder := Scalar.Guarded.remainder_eq q.value
  commit x _ := Scalar.Guarded.wrapTurn_eq x
  asLong := Scalar.Guarded.saturate_eq .bits64 q.value
  asInt := Scalar.Guarded.saturate_eq .bits32 q.value
  ceiling := ⟨_, Scalar.Guarded.ceiling_eq q.value, rfl⟩
  floor := ⟨_, Scalar.Guarded.floor_eq q.value, rfl⟩
  round := ⟨_, Scalar.Guarded.round_eq q.value, rfl⟩

end Quantity

end Measures
