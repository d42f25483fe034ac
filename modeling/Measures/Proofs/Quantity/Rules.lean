import Measures.Proofs.Binary64.Arithmetic
import Measures.Proofs.Quantity.Surface

/-!
# The rules of the algebra

What an operation on quantities with dimensions comes to, in full. A sum, a difference or a
remainder needs one dimension on both sides; a product or a quotient follows the rules for two
factors. From that, a sum and a product come to the same if their sides are exchanged.
-/

namespace Measures

namespace Quantity

variable {q r : Quantity} {d e g : Dimension} {verb : Verb}

/-- The quantity with another value and dimension; the value of an angle is reduced. -/
def measured (q : Quantity) (x : Binary64) (d : Dimension) : Quantity :=
  { q with value := settle d.unit x, unit := .unit d.unit, power := .ofInt d.power }

theorem commit_eq_measured (q : Quantity) (x : Binary64) (d : Dimension) :
    q.commit x (.unit d.unit) (.ofInt d.power) = q.measured x d := by
  unfold commit measured settle
  simp only [UnitSlot.holds, beq_iff_eq]

theorem hasDimension_measured (q : Quantity) (x : Binary64) (d : Dimension) :
    (q.measured x d).HasDimension d := ⟨rfl, rfl⟩

theorem measured_inj {x y : Binary64} (h : q.measured x d = q.measured y e) : d = e :=
  (hasDimension_measured q x d).unique (h ▸ hasDimension_measured q y e)

/-! ## Sum, difference, remainder -/

theorem HasDimension.checkDimension_of_eq (hq : q.HasDimension d) (hr : r.HasDimension d)
    (verb : Verb) : q.checkDimension r verb = .ok () := by
  unfold checkDimension
  rw [hq.unit, hq.power, hr.unit, hr.power, Power.same_ofInt, UnitSlot.identical]
  simp

/-- The powers are compared first. -/
theorem HasDimension.checkDimension_of_ne (hq : q.HasDimension d) (hr : r.HasDimension e)
    (hne : d ≠ e) (verb : Verb) : ∃ f, q.checkDimension r verb = .error f ∧
      f.kind = .incompatibleOperands ∧
      f.reason? = some (if d.power = e.power then .baseUnit else .power) := by
  unfold checkDimension
  rw [hq.unit, hq.power, hr.unit, hr.power, Power.same_ofInt, UnitSlot.identical]
  by_cases hp : d.power = e.power
  · have hu : d.unit ≠ e.unit := Dimension.unit_ne hne hp
    refine ⟨.differentUnits verb q.unitName r.unitName, ?_, rfl, by rw [if_pos hp]; rfl⟩
    simp [hp, hu]
  · refine ⟨.differentPowers verb (.int d.power) (.int e.power), ?_, rfl, by rw [if_neg hp]; rfl⟩
    simp [hp]

theorem HasDimension.addWith_of_eq (hq : q.HasDimension d) (hr : r.HasDimension d) (verb : Verb)
    (combine : Binary64 → Binary64 → Binary64) :
    q.addWith verb combine (.quantity r) = .ok (q.measured (combine q.value r.value) d) := by
  have hcheck := hq.checkDimension_of_eq hr verb
  simp only [addWith, otherTerm, ok_bind, hcheck, hq.unit, hq.power, commit_eq_measured]
  rfl

theorem HasDimension.addWith_of_ne (hq : q.HasDimension d) (hr : r.HasDimension e) (hne : d ≠ e)
    (verb : Verb) (combine : Binary64 → Binary64 → Binary64) :
    ∃ f, q.addWith verb combine (.quantity r) = .error f ∧ f.kind = .incompatibleOperands ∧
      f.reason? = some (if d.power = e.power then .baseUnit else .power) := by
  obtain ⟨f, hf, hkind, hreason⟩ := hq.checkDimension_of_ne hr hne verb
  refine ⟨f, ?_, hkind, hreason⟩
  simp only [addWith, otherTerm, ok_bind, hf, error_bind]

theorem HasDimension.mod_of_eq (hq : q.HasDimension d) (hr : r.HasDimension d)
    (hd : d.unit.isRelativeLength = false) :
    q.mod (.quantity r) = .ok (q.measured (q.value.rem r.value) d) := by
  have hcheck := hq.checkDimension_of_eq hr .mod
  simp only [mod, remainderDivisor, hcheck, ok_bind, hq.unit, hq.power, UnitSlot.isIn_unit, hd,
    commit_eq_measured]
  rfl

theorem HasDimension.mod_of_ne (hq : q.HasDimension d) (hr : r.HasDimension e) (hne : d ≠ e) :
    ∃ f, q.mod (.quantity r) = .error f ∧ f.kind = .incompatibleOperands := by
  obtain ⟨f, hf, hkind, -⟩ := hq.checkDimension_of_ne hr hne .mod
  refine ⟨f, ?_, hkind⟩
  simp only [mod, remainderDivisor, hf, error_bind]

/-! ### Remainders by a float -/

theorem HasDimension.mod_float_of_number (hq : q.HasDimension ⟨.number, 0⟩) (x : Binary64) :
    q.mod (.datum (.float x)) = .ok (q.measured (q.value.rem x) ⟨.number, 0⟩) := by
  have hscalar : (Operand.datum (.float x)).scalar = .ok x := rfl
  simp only [mod, remainderDivisor, hscalar, ok_bind, hasPower, hq.unit, hq.power,
    Power.isInt_ofInt, UnitSlot.holds]
  exact congrArg Except.ok (commit_eq_measured q _ ⟨.number, 0⟩)

theorem HasDimension.mod_float_of_ne (hq : q.HasDimension d) (hne : d ≠ ⟨.number, 0⟩)
    (x : Binary64) :
    ∃ f, q.mod (.datum (.float x)) = .error f ∧ f.kind = .incompatibleOperands := by
  have hscalar : (Operand.datum (.float x)).scalar = .ok x := rfl
  simp only [mod, remainderDivisor, hscalar, ok_bind, hasPower, hq.unit, hq.power,
    Power.isInt_ofInt, Power.datum_ofInt, UnitSlot.holds, UnitSlot.isIn_unit]
  by_cases hp : d.power = 0
  · have hu : d.unit ≠ .number := Dimension.unit_ne hne hp
    refine ⟨.scalarRemainder q.unitName
      (if d.unit.isRelativeLength then .relativeLength else .notNumber), ?_, rfl⟩
    simp [hp, hu]
  · refine ⟨.differentPowers .mod (.int d.power) (.int 0), ?_, rfl⟩
    simp [hp]

theorem HasDimension.mod_float (hq : q.HasDimension d) (hr : r.HasDimension ⟨.number, 0⟩) :
    (∃ next, q.mod (.datum (.float r.value)) = .ok next ∧ q.mod (.quantity r) = .ok next) ∨
    ∃ f g, q.mod (.datum (.float r.value)) = .error f ∧ q.mod (.quantity r) = .error g ∧
      f.kind = .incompatibleOperands ∧ g.kind = .incompatibleOperands := by
  by_cases h : d = ⟨.number, 0⟩
  · subst h
    exact .inl ⟨_, hq.mod_float_of_number r.value, hq.mod_of_eq hr rfl⟩
  · obtain ⟨f, hf, hfkind⟩ := hq.mod_float_of_ne h r.value
    obtain ⟨g, hg, hgkind⟩ := hq.mod_of_ne hr h
    exact .inr ⟨f, g, hf, hg, hfkind, hgkind⟩

/-! ## Product and quotient -/

theorem HasDimension.scale_float (hq : q.HasDimension d) (f : Factors) (x : Binary64) :
    q.scale f (.datum (.float x)) = .ok (q.measured (f.combine q.value x) d) := by
  have hscalar : (Operand.datum (.float x)).scalar = .ok x := rfl
  simp only [scale, hscalar, ok_bind, hq.unit, hq.power, commit_eq_measured]
  rfl

section Factors

variable {f : Factors} {combine : Int → Int → Int}
  (hf : ∀ i j, f.powers (.ofInt i) (.ofInt j) = .ok (.ofInt (combine i j)))

include hf

theorem HasDimension.combineUnits_of_joins (hq : q.HasDimension d) (hr : r.HasDimension e)
    (hd : d.IsLegal) (he : e.IsLegal) (h : Dimension.Joins combine d e g) :
    combineUnits f q r = .ok (.unit g.unit, .ofInt g.power) := by
  simp only [combineUnits, hq.unit, hq.power, hr.unit, hr.power, hf, UnitSlot.isIn_unit, ok_bind,
    UnitSlot.holds, UnitSlot.identical, beq_iff_eq]
  cases h with
  | numberLeft h =>
    rw [if_pos h]
    rfl
  | numberRight h =>
    -- Of two numbers the right one is taken, which has the same dimension as the left one.
    by_cases hn : d.unit = .number
    · rw [if_pos hn, hd.eq_number hn, he.eq_number h]
      rfl
    · rw [if_neg hn, if_pos h]
      rfl
  | sameUnit hp hsame =>
    have hn : d.unit ≠ .number := BaseUnit.ne_number_of_isPhysical hp
    rw [if_neg hn, if_neg (hsame ▸ hn), if_pos hp, if_pos (hsame ▸ hp)]
    simp [hsame, pure, Except.pure]
  | lengthLeft hlength hrelative =>
    have hn : e.unit ≠ .number := BaseUnit.ne_number_of_isRelativeLength hrelative
    have hp := BaseUnit.not_isPhysical_of_isRelativeLength hrelative
    rw [if_neg (by rw [hlength]; decide), if_neg hn, if_pos (by rw [hlength]; rfl), if_neg hp]
    simp [hlength, pure, Except.pure]
  | lengthRight hrelative hlength =>
    have hn : d.unit ≠ .number := BaseUnit.ne_number_of_isRelativeLength hrelative
    have hp := BaseUnit.not_isPhysical_of_isRelativeLength hrelative
    rw [if_neg hn, if_neg (by rw [hlength]; decide), if_neg hp, if_pos hlength]
    rfl

theorem HasDimension.scale_of_joins (hq : q.HasDimension d) (hr : r.HasDimension e)
    (hd : d.IsLegal) (he : e.IsLegal) (h : Dimension.Joins combine d e g) :
    q.scale f (.quantity r) = .ok (q.measured (f.combine q.value r.value) g.reduced) := by
  have hcombine := hq.combineUnits_of_joins hf hr hd he h
  have hreduce := reduceUnit_eq (hd.joins he h)
  simp only [scale, hcombine, ok_bind, hreduce]
  rw [← Dimension.reduced_power g, commit_eq_measured]
  rfl

theorem HasDimension.scale_of_not_goesWith (hq : q.HasDimension d) (hr : r.HasDimension e)
    (h : ¬ d.unit.GoesWith e.unit) :
    ∃ fault, q.scale f (.quantity r) = .error fault ∧ fault.kind = .incompatibleUnits := by
  cases hcombine : combineUnits f q r with
  | error fault =>
    refine ⟨fault, ?_, hq.failsAs_combineUnits hf hr fault hcombine⟩
    simp only [scale, hcombine, error_bind]
  | ok next =>
    obtain ⟨g, hg, -, -⟩ := hq.joins hf hr hcombine
    exact absurd (Dimension.goesWith_iff.2 ⟨g, hg⟩) h

end Factors

/-! ## Exchanged sides -/

structure SameMeasure (q r : Quantity) : Prop where
  value : q.value = r.value
  unit : q.unit = r.unit
  power : q.power = r.power

theorem sameMeasure_measured (q r : Quantity) (x : Binary64) (d : Dimension) :
    (q.measured x d).SameMeasure (r.measured x d) := ⟨rfl, rfl, rfl⟩

/-- The same measure on both sides, or faults of a kind for the same reason. -/
def Balanced (kind : FaultKind) (x y : Except Fault Quantity) : Prop :=
  (∃ q r, x = .ok q ∧ y = .ok r ∧ q.SameMeasure r) ∨
    ∃ f g, x = .error f ∧ y = .error g ∧ f.kind = kind ∧ g.kind = kind ∧ f.reason? = g.reason?

theorem HasDimension.balanced_add (hq : q.HasDimension d) (hr : r.HasDimension e) :
    Balanced .incompatibleOperands (q.add (.quantity r)) (r.add (.quantity q)) := by
  unfold add
  by_cases h : d = e
  · subst h
    have hcomm : r.value + q.value = q.value + r.value := Binary64.add_comm r.value q.value
    refine .inl ⟨_, _, hq.addWith_of_eq hr .add (· + ·), hr.addWith_of_eq hq .add (· + ·), ?_⟩
    rw [hcomm]
    exact sameMeasure_measured q r _ d
  · obtain ⟨f, hf, hfkind, hfreason⟩ := hq.addWith_of_ne hr h .add (· + ·)
    obtain ⟨g, hg, hgkind, hgreason⟩ := hr.addWith_of_ne hq (Ne.symm h) .add (· + ·)
    refine .inr ⟨f, g, hf, hg, hfkind, hgkind, ?_⟩
    rw [hfreason, hgreason, if_congr (eq_comm : d.power = e.power ↔ _) rfl rfl]

theorem HasDimension.balanced_multiply (hq : q.HasDimension d) (hr : r.HasDimension e)
    (hd : d.IsLegal) (he : e.IsLegal) :
    Balanced .incompatibleUnits (q.multiply (.quantity r)) (r.multiply (.quantity q)) := by
  have hf : ∀ i j, Factors.product.powers (.ofInt i) (.ofInt j) = .ok (.ofInt (i + j)) :=
    fun _ _ => rfl
  unfold Quantity.multiply
  -- The receiver decides on the rule that is applied, and the exchanged rule has the same outcome.
  by_cases h : d.unit.GoesWith e.unit
  · obtain ⟨g, hg⟩ := Dimension.goesWith_iff.1 h
    have hcomm : Factors.product.combine r.value q.value
        = Factors.product.combine q.value r.value := Binary64.mul_comm r.value q.value
    refine .inl ⟨_, _, hq.scale_of_joins hf hr hd he hg,
      hr.scale_of_joins hf hq he hd hg.symm, ?_⟩
    rw [hcomm]
    exact sameMeasure_measured q r _ g.reduced
  · have h' : ¬ e.unit.GoesWith d.unit := by
      intro hgoes
      obtain ⟨g, hg⟩ := Dimension.goesWith_iff.1 hgoes
      exact h (Dimension.goesWith_iff.2 ⟨g, hg.symm⟩)
    obtain ⟨f, hleft, hfkind⟩ := hq.scale_of_not_goesWith hf hr h
    obtain ⟨g, hright, hgkind⟩ := hr.scale_of_not_goesWith hf hq h'
    have hfreason : f.reason? = none := Fault.reason?_eq_none (by rw [hfkind]; decide)
    have hgreason : g.reason? = none := Fault.reason?_eq_none (by rw [hgkind]; decide)
    exact .inr ⟨f, g, hleft, hright, hfkind, hgkind, hfreason.trans hgreason.symm⟩

theorem HasDimension.balanced_apply (hv : verb = .add ∨ verb = .multiply)
    (hq : q.HasDimension d) (hr : r.HasDimension e) (hd : d.IsLegal) (he : e.IsLegal) :
    Balanced verb.mismatch (q.apply verb (.quantity r)) (r.apply verb (.quantity q)) := by
  rcases hv with rfl | rfl
  · exact hq.balanced_add hr
  · exact hq.balanced_multiply hr hd he

end Quantity

end Measures
