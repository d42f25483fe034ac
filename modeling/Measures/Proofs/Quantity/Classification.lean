import Measures.Proofs.Property.Reachable
import Measures.Proofs.Quantity.Surface
import Measures.Quantity.Function

/-!
# Validation by classification

Validation has a table of its own for what it demands of each base unit. On quantities with legal
dimensions the table says the same as the predicates that classify a quantity, so that what comes
of a validation can be told from these predicates and the definitions of the registry alone.
-/

namespace Measures

namespace Registry

variable {r : Registry} {key : Datum} {d : Definition} {i : Int}

theorem Reachable.get_integer_eq_ok_iff (hr : r.Reachable) (h : key.integer? = some i) :
    r.get key = .ok d ↔ d ∈ r.toList ∧ (d.index : Int) = i := by
  obtain ⟨ds, hds⟩ := hr.holds
  rw [hds.get_eq_ok_iff, hds.toList_perm.mem_iff, keyIndex?_of_integer? h, Option.some.injEq,
    eq_comm (a := i)]

theorem failsAs_get_integer (h : key.integer? = some i) :
    FailsAs .unknownProperty (r.get key) := by
  have hkey := keyIndex?_of_integer? h
  rw [get_eq, asKey_eq_ok hkey, ok_bind, hkey, Option.bind_some]
  cases r.atIndex? i with
  | none => exact failsAs_error rfl
  | some d => exact failsAs_ok d

end Registry

namespace Quantity

variable {q : Quantity} {r : Registry} {c : Category} {d : Dimension} {i : Int}

/-- Whether a quantity is of a category, by the predicate for it. -/
def isA (q : Quantity) : Category → Bool
  | .number => q.isNumber
  | .percentage => q.isPercentage
  | .length => q.isLength
  | .frequency => q.isFrequency
  | .time => q.isTime
  | .angle => q.isAngle

theorem HasDimension.isA_eq (hq : q.HasDimension d) (c : Category) :
    q.isA c = match c with
      | .number => d.unit == .number
      | .percentage => d.unit == .percentage
      | .length => d.unit == .millipoints && d.power == 1
      | .frequency => d.unit == .hertz && d.power == 1
      | .time => d.unit == .millisecs && d.power == 1
      | .angle => d.unit == .degrees && d.power == 1 := by
  have hholds (u : BaseUnit) : q.unit.holds u = (d.unit == u) := by
    rw [hq.unit]
    rfl
  have hpower : q.hasPower 1 = (d.power == 1) := by rw [hasPower, hq.power, Power.isInt_ofInt]
  cases c with
  | number | percentage => exact hholds _
  | length => rw [isA, isLength, hholds, hpower]
  | frequency => rw [isA, isFrequency, hholds, hpower]
  | time => rw [isA, isTime, hholds, hpower]
  | angle => rw [isA, isAngle, hholds, hpower]

theorem HasDimension.category_eq_ok_iff (hq : q.HasDimension d) (hd : d.IsLegal) :
    q.category = .ok c ↔ q.isA c = true := by
  rw [category_eq hq.unit hq.power, hq.isA_eq]
  obtain ⟨u, p⟩ := d
  cases u with
  | number | percentage =>
    -- The table looks at the power and the predicates do not: it is zero anyway.
    obtain rfl : p = 0 := hd rfl
    cases c <;> simp [BaseUnit.demand?]
  | ems => cases c <;> simp [BaseUnit.demand?]
  | millipoints | hertz | millisecs | degrees =>
    by_cases hp : p = 1 <;> cases c <;> simp [BaseUnit.demand?, hp]

/-! ## What a validation comes to -/

/-- The property is registered for a category that the quantity is of. -/
def Accepted (q : Quantity) (r : Registry) (i : Int) : Prop :=
  ∃ c, q.isA c = true ∧ ∃ d ∈ r.toList, (d.index : Int) = i ∧ d.categories.contains c = true

/-- The quantity is of a category, and the property is not registered. -/
def Unregistered (q : Quantity) (r : Registry) (i : Int) : Prop :=
  (∃ c, q.isA c = true) ∧ ∀ d ∈ r.toList, (d.index : Int) ≠ i

theorem Accepted.not_unregistered (h : q.Accepted r i) : ¬ q.Unregistered r i := by
  obtain ⟨c, -, d, hd, hi, -⟩ := h
  exact fun hnone => hnone.2 d hd hi

theorem HasDimension.validate_cases (hq : q.HasDimension d) (hd : d.IsLegal) (hr : r.Reachable)
    (hi : q.property.integer? = some i) :
    (q.Accepted r i ∧ q.validate (.ok r) = .ok ()) ∨
    (q.Unregistered r i ∧
      ∃ f, q.validate (.ok r) = .error f ∧ f.kind = .unknownProperty) ∨
    (¬ q.Accepted r i ∧ ¬ q.Unregistered r i ∧
      ∃ f, q.validate (.ok r) = .error f ∧ f.kind = .propertyValidation) := by
  -- First the category, then whether the property is registered, then its categories.
  cases hcategory : q.category with
  | error f =>
    have hnone : ¬ ∃ c, q.isA c = true := by
      rintro ⟨c, hc⟩
      rw [(hq.category_eq_ok_iff hd).2 hc] at hcategory
      cases hcategory
    refine .inr (.inr ⟨fun ⟨c, hc, _⟩ => hnone ⟨c, hc⟩, fun h => hnone h.1, f, ?_,
      failsAs_category hq.unit hq.power f hcategory⟩)
    rw [validate, hcategory, error_bind]
  | ok c =>
    have hc : q.isA c = true := (hq.category_eq_ok_iff hd).1 hcategory
    have hunique {c' : Category} (hc' : q.isA c' = true) : c' = c := by
      have hok := (hq.category_eq_ok_iff hd).2 hc'
      exact Except.ok.inj (hok.symm.trans hcategory)
    have hvalidate : q.validate (.ok r) = q.checkCategory c r := by
      rw [validate, hcategory]
      rfl
    rw [hvalidate, checkCategory]
    cases hget : r.get q.property with
    | error f =>
      refine .inr (.inl ⟨⟨⟨c, hc⟩, fun e he hei => ?_⟩, f, rfl,
        Registry.failsAs_get_integer hi f hget⟩)
      rw [(hr.get_integer_eq_ok_iff hi).2 ⟨he, hei⟩] at hget
      cases hget
    | ok e =>
      obtain ⟨he, hei⟩ := (hr.get_integer_eq_ok_iff hi).1 hget
      rw [ok_bind]
      cases hcontains : e.categories.contains c with
      | true => exact .inl ⟨⟨c, hc, e, he, hei, hcontains⟩, rfl⟩
      | false =>
        refine .inr (.inr ⟨?_, fun h => h.2 e he hei, .illegalCategory c e.name, rfl, rfl⟩)
        rintro ⟨c', hc', e', he', hei', hcontains'⟩
        obtain rfl := hunique hc'
        have hget' := (hr.get_integer_eq_ok_iff hi).2 ⟨he', hei'⟩
        obtain rfl : e = e' := Except.ok.inj (hget.symm.trans hget')
        rw [hcontains] at hcontains'
        cases hcontains'

/-- An answer judges a quantity: it is no fault exactly if the quantity is accepted, and the kind
of its fault says whether the property is unregistered. -/
structure Judges {α : Type} (q : Quantity) (r : Registry) (i : Int) (answer : Except Fault α) :
    Prop where
  accepts : (∃ a, answer = .ok a) ↔ q.Accepted r i
  unknown : (∃ f, answer = .error f ∧ f.kind = .unknownProperty) ↔ q.Unregistered r i
  refuses : (∃ f, answer = .error f ∧ f.kind = .propertyValidation) ↔
    ¬ q.Accepted r i ∧ ¬ q.Unregistered r i

theorem HasDimension.judges (hq : q.HasDimension d) (hd : d.IsLegal) (hr : r.Reachable)
    (hi : q.property.integer? = some i) : q.Judges r i (q.validate (.ok r)) := by
  rcases hq.validate_cases hd hr hi with ⟨ha, h⟩ | ⟨hu, f, h, hkind⟩ | ⟨ha, hu, f, h, hkind⟩
  · have hu := ha.not_unregistered
    rw [h]
    constructor <;> simp [ha, hu]
  · have ha : ¬ q.Accepted r i := fun ha => ha.not_unregistered hu
    rw [h]
    constructor <;> simp [ha, hu, hkind]
  · rw [h]
    constructor <;> simp [ha, hu, hkind]

theorem Judges.map {α β : Type} {answer : Except Fault α} (h : q.Judges r i answer) (f : α → β) :
    q.Judges r i (answer.map f) := by
  have hok : (∃ b, answer.map f = .ok b) ↔ ∃ a, answer = .ok a := by
    cases answer <;> simp [Except.map]
  refine ⟨hok.trans h.accepts, ?_, ?_⟩
  · simp only [map_eq_error, h.unknown]
  · simp only [map_eq_error, h.refuses]

theorem Judges.kind {α : Type} {answer : Except Fault α} (h : q.Judges r i answer) {f : Fault}
    (hf : answer = .error f) : f.kind = .unknownProperty ∨ f.kind = .propertyValidation := by
  subst hf
  by_cases hu : q.Unregistered r i
  · obtain ⟨g, hg, hkind⟩ := h.unknown.2 hu
    cases hg
    exact .inl hkind
  · have ha : ¬ q.Accepted r i := by
      intro ha
      obtain ⟨a, ⟨⟩⟩ := h.accepts.2 ha
    obtain ⟨g, hg, hkind⟩ := h.refuses.2 ⟨ha, hu⟩
    cases hg
    exact .inr hkind

end Quantity

end Measures
