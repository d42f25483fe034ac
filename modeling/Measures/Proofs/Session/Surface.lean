import Measures.Proofs.Quantity.Kind
import Measures.Proofs.Quantity.Surface
import Measures.Proofs.Session.Frame
import Measures.Proofs.Session.Sound

/-!
# What the steps of a run can fail with

No run gets to a quantity that would make an operation fail in another way than by an operand that
does not go with it, or a function by a power that is not zero.
-/

namespace Measures

namespace Quantity

variable {q : Quantity}

/-! ## The base unit at the time of making -/

theorem exists_madeUnit_make {property value unit power literal : Operand}
    (h : make property value unit power literal = .ok q) : ∃ u, q.madeUnit = .unit u := by
  obtain ⟨u, _, _, _, _, -, -, -, rfl⟩ := exists_ofParts_of_make h
  exact ⟨u, rfl⟩

theorem exists_madeUnit_ofKind {kind : Kind} {property : Datum} {value : Operand}
    {unit : Option Operand} (h : ofKind kind property value unit = .ok q) :
    ∃ u, q.madeUnit = .unit u := by
  cases kind with
  | number | percentage | ems =>
    obtain ⟨x, -, h⟩ := bind_eq_ok.1 h
    obtain rfl := Except.ok.inj h
    exact ⟨_, rfl⟩
  | length | frequency | time | angle =>
    obtain ⟨x, u, -, -, rfl⟩ := ofPhysical_eq_ok_iff.1 h
    exact ⟨_, rfl⟩

end Quantity

namespace Session

variable {registry : Except Fault Registry} {s : Session} {q r : Quantity} {name n : String}
  {verb : Verb} {a : Argument} {o : Operand}

theorem exists_madeUnit_recipe {recipe : Recipe} (h : s.make registry recipe = .ok q) :
    ∃ u, q.madeUnit = .unit u := by
  cases recipe with
  | full property value unit power literal =>
    obtain ⟨_, _, _, _, _, -, -, h⟩ := exists_of_make_full h
    exact Quantity.exists_madeUnit_make h
  | ofProperty property value unit power literal =>
    obtain ⟨_, _, _, _, _, -, -, h⟩ := exists_of_make_ofProperty h
    exact Quantity.exists_madeUnit_make h
  | ofKind kind property value unit =>
    obtain ⟨_, _, _, -, h⟩ := exists_of_make_ofKind h
    exact Quantity.exists_madeUnit_ofKind h

theorem madeUnit_of_origin {u : BaseUnit} (h : q.origin = r.origin) (hu : r.madeUnit = .unit u) :
    q.madeUnit = .unit u :=
  (congrArg Quantity.Origin.unit h).trans hu

theorem All.madeUnit_step (h : s.All fun q => ∃ u, q.madeUnit = .unit u) {action : Step}
    (ho : ¬ action.Overwrites) :
    (s.step registry action).2.All fun q => ∃ u, q.madeUnit = .unit u := by
  refine h.step ho (fun _ _ _ _ hq => exists_madeUnit_recipe hq) ?_ fun _ hq => hq
  intro subject c q _ hq
  obtain ⟨r, hr, horigin⟩ := origin_changed hq
  obtain ⟨u, hu⟩ := h subject r hr
  exact ⟨u, madeUnit_of_origin horigin hu⟩

/-! ## Answers -/

theorem answer_change (subject : String) (c : Change) :
    (s.step registry (.change subject c)).1 = (s.changed subject c).map fun _ => .changed := by
  rw [step_change]
  cases s.changed subject c <;> rfl

theorem operand_named (hr : s.get? n = some r) : s.operand (.named n) = .ok (.quantity r) := by
  rw [operand, get_eq_ok_iff.2 hr]
  rfl

theorem changed_apply (hq : s.get? name = some q) (ho : s.operand a = .ok o) :
    s.changed name (.apply verb a) = q.apply verb o := by
  rw [changed, get_eq_ok_iff.2 hq, ho]
  rfl

theorem changed_operator (hq : s.get? name = some q) (ho : s.operand a = .ok o) :
    s.changed name (.operator verb a) = q.applyOperator verb o := by
  rw [changed, get_eq_ok_iff.2 hq, ho]
  rfl

/-- For an operand that is taken both forms come to the same. -/
theorem changed_form {c : Argument → Change} (hc : IsForm verb c) (hq : s.get? name = some q)
    (ho : s.operand a = .ok o) (hv : verb.refuses o = false) :
    s.changed name (c a) = q.apply verb o := by
  rcases hc with rfl | rfl
  · exact changed_apply hq ho
  · rw [changed_operator hq ho, Quantity.applyOperator_of_not_refuses hv]

theorem changed_named {c : Argument → Change} (hc : IsForm verb c) (hq : s.get? name = some q)
    (hr : s.get? n = some r) : s.changed name (c (.named n)) = q.apply verb (.quantity r) :=
  changed_form hc hq (operand_named hr) (verb.refuses_quantity r)

theorem changed_float {c : Argument → Change} (hc : IsForm verb c) (hq : s.get? name = some q)
    {x : Binary64} (hv : verb.refuses (.datum (.float x)) = false) :
    s.changed name (c (.datum (.float x))) = q.apply verb (.datum (.float x)) :=
  changed_form hc hq rfl hv

theorem answer_ask (hq : s.get? name = some q) (query : Query) :
    (s.step registry (.ask name query)).1 = (query.answer q).map .datum := by
  rw [step_ask, get_eq_ok_iff.2 hq, ok_bind]
  cases query.answer q <;> rfl

theorem answer_compare (hq : s.get? name = some q) (ho : s.operand a = .ok o)
    (comparison : Comparison) :
    (s.step registry (.compare name comparison a)).1
      = (q.pick comparison o).map fun x => .datum (.float x) := by
  rw [step_compare, get_eq_ok_iff.2 hq, ok_bind, ho, ok_bind]
  cases q.pick comparison o <;> rfl

/-! ## The surface -/

/-- All that the steps at a quantity can fail with, quantities and floats being given to them. -/
structure Closed (s : Session) (registry : Except Fault Registry) (name : String)
    (q : Quantity) : Prop where
  operation {verb : Verb} {c : Argument → Change} (hc : IsForm verb c) {n : String} {r : Quantity}
    (hr : s.get? n = some r) :
    FailsAs verb.mismatch (s.step registry (.change name (c (.named n)))).1
  /-- Only sums and differences refuse numbers. -/
  number {verb : Verb} {c : Argument → Change} (hc : IsForm verb c) (x : Binary64) :
    let answer := (s.step registry (.change name (c (.datum (.float x))))).1
    if verb.refuses (.datum (.float x)) then FailsIff .wrongType True answer
    else FailsAs verb.mismatch answer
  negation : (s.step registry (.change name .negate)).1 = .ok .changed
  description (query : Query) (h : query ∈ Query.described) :
    ∃ d, (s.step registry (.ask name query)).1 = .ok (.datum d)
  function (query : Query) (h : query ∉ Query.described) :
    FailsIff .dimension (q.power ≠ .ofInt 0) (s.step registry (.ask name query)).1
  comparison (comparison : Comparison) {n : String} {r : Quantity} (hr : s.get? n = some r) :
    FailsIff .dimension (q.power ≠ .ofInt 0 ∨ r.power ≠ .ofInt 0)
      (s.step registry (.compare name comparison (.named n))).1
  numberCompared (comparison : Comparison) (x : Binary64) :
    FailsIff .wrongType True (s.step registry (.compare name comparison (.datum (.float x)))).1
  recognized : q.Recognized
  /-- The check of the power of a product or quotient always passes. -/
  reduction {f : Quantity.Factors} (hf : f = .product ∨ f = .quotient) {n : String} {r : Quantity}
    (hr : s.get? n = some r) {unit : UnitSlot} {power : Power}
    (h : Quantity.combineUnits f q r = .ok (unit, power)) :
    ∃ kept, Quantity.reduceUnit unit power = .ok kept
  untrapped : q.Untrapped

theorem closed_of_sound {strict : Prop} (hs : s.Sound strict)
    (hmade : s.All fun q => ∃ u, q.madeUnit = .unit u) (hq : s.get? name = some q) :
    Closed s registry name q where
  operation := by
    intro verb c hc n r hr
    rw [answer_change, changed_named hc hq hr]
    exact ((hs name q hq).failsAs_apply (hs n r hr) verb).map _
  number := by
    intro verb c hc x
    have ho : s.operand (.datum (.float x)) = .ok (.datum (.float x)) := rfl
    cases hv : verb.refuses (.datum (.float x)) with
    | true =>
      obtain ⟨happly, hoperator⟩ := Quantity.failsIff_of_refuses hv q
      rw [answer_change]
      rcases hc with rfl | rfl
      · rw [changed_apply hq ho]
        exact happly.map _
      · rw [changed_operator hq ho]
        exact hoperator.map _
    | false =>
      rw [answer_change, changed_float hc hq hv]
      exact ((hs name q hq).failsAs_apply_float hv).map _
  negation := by
    rw [answer_change, changed, get_eq_ok_iff.2 hq]
    rfl
  description := by
    intro query h
    obtain ⟨u, p, hu, -⟩ := hs name q hq
    obtain ⟨v, hv⟩ := hmade name q hq
    obtain ⟨d, hd⟩ := Quantity.answers_of_described hu hv h
    rw [answer_ask hq, hd]
    exact ⟨d, rfl⟩
  function := by
    intro query h
    obtain ⟨u, p, -, hp, -⟩ := hs name q hq
    rw [answer_ask hq]
    exact (Quantity.failsIff_of_not_described hp h).map _
  comparison := by
    intro comparison n r hr
    obtain ⟨u, p, -, hp, -⟩ := hs name q hq
    obtain ⟨v, m, -, hm, -⟩ := hs n r hr
    rw [answer_compare hq (operand_named hr)]
    cases comparison with
    | max | min => exact (Quantity.failsIff_compare hp hm _ _).map _
  numberCompared := by
    intro comparison x
    rw [answer_compare hq rfl]
    cases comparison with
    | max | min => exact (failsIff_error rfl).map _
  recognized := by
    obtain ⟨v, hv⟩ := hmade name q hq
    exact (hs name q hq).recognized hv
  reduction := by
    intro f hf n r hr unit power h
    rcases hf with rfl | rfl
    · exact (hs name q hq).exists_reduceUnit (fun _ _ => rfl) (hs n r hr) h
    · exact (hs name q hq).exists_reduceUnit (fun _ _ => rfl) (hs n r hr) h
  untrapped := q.untrapped

/-- In a run that overwrites nothing, at every quantity at every time: with a quantity or a float
an operation fails only if the two do not go together, but a sum or a difference takes no float; a
function of power zero fails exactly if a power is not zero, but a comparison takes no float;
nothing else fails. No base unit goes unrecognized, no power is left to what has no dimension, and
no rule for numbers traps. -/
theorem closed_of_run {requests : List Request} (ho : ∀ r ∈ requests, ¬ r.step.Overwrites) :
    ∀ o ∈ empty.trace requests, ∀ name q, o.2.get? name = some q →
      ∀ registry, Closed o.2 registry name q := by
  intro o hmem name q hq registry
  have hs : o.2.Sound False := Sound.trace all_empty ho nofun o hmem
  have hmade : o.2.All fun q => ∃ u, q.madeUnit = .unit u :=
    Action.forall_trace (fun r hr _ h => h.madeUnit_step (ho r hr)) all_empty o hmem
  exact closed_of_sound hs hmade hq

def squaring : List Request :=
  [.make (.ofKind .length (.datum (.int 0)) (.datum (.float (.ofInt 1))) none) "a",
    .change "a" (.apply .multiply (.named "a"))].map fun action => ⟨.ok .empty, action⟩

theorem closed_of_run_squaring :
    (∀ r ∈ squaring, ¬ r.step.Overwrites) ∧
      ∃ o ∈ empty.trace squaring, ∃ q, o.2.get? "a" = some q ∧ q.power = .ofInt 2 ∧
        (∃ f, (o.2.step (.ok .empty) (.ask "a" .abs)).1 = .error f ∧ f.kind = .dimension) ∧
        (∃ f, (o.2.step (.ok .empty) (.change "a" (.apply .mod (.datum (.float .nan))))).1
            = .error f ∧ f.kind = .incompatibleOperands) ∧
        ∃ d, (o.2.step (.ok .empty) (.ask "a" .fullText)).1 = .ok (.datum d) := by
  have ho : ∀ r ∈ squaring, ¬ r.step.Overwrites := by simp [squaring, Step.Overwrites]
  have hclosed := closed_of_run ho _ (List.mem_cons_of_mem _ List.mem_cons_self) "a" _ rfl
    (.ok .empty)
  refine ⟨ho, _, List.mem_cons_of_mem _ List.mem_cons_self, _, rfl, rfl, ?_, ?_, ?_⟩
  · obtain ⟨hkind, hfails⟩ := hclosed.function .abs (by decide)
    obtain ⟨f, hf⟩ := hfails.2 (by rintro ⟨⟩)
    exact ⟨f, hf, hkind f hf⟩
  · have hmod : FailsAs Verb.mod.mismatch _ := hclosed.number (.inl rfl : IsForm .mod _) .nan
    exact ⟨_, rfl, hmod _ rfl⟩
  · exact hclosed.description .fullText (by decide)

def counting : List Request :=
  [.make (.ofKind .number (.datum (.int 0)) (.datum (.float (.ofInt 1))) none) "a"].map
    fun action => ⟨.ok .empty, action⟩

/-- A float is neither added to a number nor held against one. -/
theorem not_closed_counting :
    (∀ r ∈ counting, ¬ r.step.Overwrites) ∧
      ∃ o ∈ empty.trace counting, (o.2.get? "a").isSome = true ∧ ∀ x : Binary64,
        ¬ FailsAs .incompatibleOperands
          (o.2.step (.ok .empty) (.change "a" (.apply .add (.datum (.float x))))).1 ∧
        ¬ FailsAs .dimension (o.2.step (.ok .empty) (.compare "a" .max (.datum (.float x)))).1 := by
  refine ⟨by simp [counting, Step.Overwrites], _, List.mem_cons_self, rfl, fun x => ⟨?_, ?_⟩⟩
  · intro h
    cases h (.cannotCombine .add "float") rfl
  · intro h
    cases h (.needsQuantity "max" "float") rfl

end Session

end Measures
