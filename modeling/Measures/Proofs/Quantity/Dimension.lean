import Measures.Proofs.Failure
import Measures.Quantity.Algebra

/-!
# Dimensions

The base unit and the power of a quantity, apart from its value, and what a product or quotient does
with those of its two sides.
-/

namespace Measures

namespace BaseUnit

variable {u v : BaseUnit}

theorem isRelativeLength_of (hn : u ≠ .number) (hp : ¬ u.isPhysical = true) :
    u.isRelativeLength = true := by
  have hnumeric : u.isNumeric = true := by simp [isNumeric_eq_not_isPhysical, hp]
  exact (u.isNumeric_iff.1 hnumeric).resolve_left hn

theorem ne_number_of_isPhysical (h : u.isPhysical = true) : u ≠ .number := by
  rintro rfl
  cases h

theorem ne_number_of_isRelativeLength (h : u.isRelativeLength = true) : u ≠ .number := by
  rintro rfl
  cases h

/-- A number goes with anything, a physical unit with itself, and a relative length with a
length. -/
def GoesWith (u v : BaseUnit) : Prop :=
  u = .number ∨ v = .number ∨ (u.isPhysical = true ∧ u = v) ∨
    (u = .millipoints ∧ v.isRelativeLength = true) ∨
    (u.isRelativeLength = true ∧ v = .millipoints)

instance (u v : BaseUnit) : Decidable (u.GoesWith v) := inferInstanceAs (Decidable (_ ∨ _))

end BaseUnit

structure Dimension where
  unit : BaseUnit
  power : Int
  deriving DecidableEq, Repr

namespace Dimension

variable {combine : Int → Int → Int} {d e g : Dimension}

/-- Without a dimension the power is zero, and a physical unit has a positive one. -/
def IsFactor (d : Dimension) : Prop :=
  (d.unit.isNumeric = true → d.power = 0) ∧ (d.unit.isPhysical = true → 1 ≤ d.power)

instance (d : Dimension) : Decidable d.IsFactor := inferInstanceAs (Decidable (_ ∧ _))

/-- The rules for two factors, `combine` being what is done with equal units: a number scales
anything, and a relative length is a part of a length. No other two factors go together. -/
inductive Joins (combine : Int → Int → Int) : Dimension → Dimension → Dimension → Prop
  | numberLeft {d e : Dimension} (h : d.unit = .number) : Joins combine d e e
  | numberRight {d e : Dimension} (h : e.unit = .number) : Joins combine d e d
  | sameUnit {d e : Dimension} (hd : d.unit.isPhysical = true) (h : d.unit = e.unit) :
    Joins combine d e ⟨d.unit, combine d.power e.power⟩
  | lengthLeft {d e : Dimension} (hd : d.unit = .millipoints)
    (he : e.unit.isRelativeLength = true) : Joins combine d e d
  | lengthRight {d e : Dimension} (hd : d.unit.isRelativeLength = true)
    (he : e.unit = .millipoints) : Joins combine d e e

/-- A product of factors is a factor: no power comes to zero. -/
theorem IsFactor.joins {d e f : Dimension} (hd : d.IsFactor) (he : e.IsFactor)
    (h : Joins (· + ·) d e f) : f.IsFactor := by
  cases h with
  | numberLeft _ | lengthRight _ _ => exact he
  | numberRight _ | lengthLeft _ _ => exact hd
  | sameUnit hp hu =>
    have hdp : 1 ≤ d.power := hd.2 hp
    have hep : 1 ≤ e.power := he.2 (hu ▸ hp)
    refine ⟨fun hn => ?_, fun _ => ?_⟩
    · simp [BaseUnit.isNumeric_eq_not_isPhysical, hp] at hn
    · change 1 ≤ d.power + e.power
      omega

theorem unit_ne (hne : d ≠ e) (hp : d.power = e.power) : d.unit ≠ e.unit := by
  intro hu
  cases d
  cases e
  simp_all

/-! ### Legal dimensions -/

/-- The power is zero wherever there is no dimension. -/
def IsLegal (d : Dimension) : Prop := d.unit.isNumeric = true → d.power = 0

theorem IsLegal.joins {combine : Int → Int → Int} {d e f : Dimension} (hd : d.IsLegal)
    (he : e.IsLegal) (h : Joins combine d e f) : f.IsLegal := by
  cases h with
  | numberLeft _ | lengthRight _ _ => exact he
  | numberRight _ | lengthLeft _ _ => exact hd
  | sameUnit hp _ =>
    intro hn
    simp [BaseUnit.isNumeric_eq_not_isPhysical, hp] at hn

theorem IsLegal.eq_number (h : d.IsLegal) (hd : d.unit = .number) : d = ⟨.number, 0⟩ := by
  have hp : d.power = 0 := h (by rw [hd]; rfl)
  cases d
  simp_all

/-! ### The rules as a table -/

theorem goesWith_iff : d.unit.GoesWith e.unit ↔ ∃ g, Joins combine d e g := by
  constructor
  · rintro (h | h | ⟨hp, hsame⟩ | ⟨hd, he⟩ | ⟨hd, he⟩)
    · exact ⟨e, .numberLeft h⟩
    · exact ⟨d, .numberRight h⟩
    · exact ⟨_, .sameUnit hp hsame⟩
    · exact ⟨d, .lengthLeft hd he⟩
    · exact ⟨e, .lengthRight hd he⟩
  · rintro ⟨g, h⟩
    cases h with
    | numberLeft h => exact .inl h
    | numberRight h => exact .inr (.inl h)
    | sameUnit hp h => exact .inr (.inr (.inl ⟨hp, h⟩))
    | lengthLeft hd he => exact .inr (.inr (.inr (.inl ⟨hd, he⟩)))
    | lengthRight hd he => exact .inr (.inr (.inr (.inr ⟨hd, he⟩)))

/-- The dimension that two sides come to if they go together: the one beside a number, equal
physical units with `combine` for their powers, or the length beside a relative length. -/
def joined (combine : Int → Int → Int) (d e : Dimension) : Dimension :=
  if d.unit = .number then e
  else if e.unit = .number then d
  else if d.unit = e.unit then ⟨d.unit, combine d.power e.power⟩
  else ⟨.millipoints, if d.unit = .millipoints then d.power else e.power⟩

/-- The rules and the table say the same. -/
theorem Joins.eq_joined (hd : d.IsLegal) (he : e.IsLegal) (h : Joins combine d e g) :
    g = d.joined combine e := by
  unfold joined
  cases h with
  | numberLeft h => rw [if_pos h]
  | numberRight h =>
    by_cases hn : d.unit = .number
    · rw [if_pos hn, hd.eq_number hn, he.eq_number h]
    · rw [if_neg hn, if_pos h]
  | sameUnit hp hsame =>
    have hn : d.unit ≠ .number := BaseUnit.ne_number_of_isPhysical hp
    rw [if_neg hn, if_neg (hsame ▸ hn), if_pos hsame]
  | lengthLeft hlength hrelative =>
    have hn : e.unit ≠ .number := BaseUnit.ne_number_of_isRelativeLength hrelative
    have hne : d.unit ≠ e.unit := by
      intro heq
      rw [← heq, hlength] at hrelative
      cases hrelative
    rw [if_neg (by rw [hlength]; decide), if_neg hn, if_neg hne, if_pos hlength, ← hlength]
  | lengthRight hrelative hlength =>
    have hn : d.unit ≠ .number := BaseUnit.ne_number_of_isRelativeLength hrelative
    have hne : d.unit ≠ .millipoints := by
      intro heq
      rw [heq] at hrelative
      cases hrelative
    rw [if_neg hn, if_neg (by rw [hlength]; decide), if_neg (hlength ▸ hne), if_neg hne, ← hlength]

/-- In a product the two sides can be exchanged. -/
theorem Joins.symm (h : Joins (· + ·) d e g) : Joins (· + ·) e d g := by
  cases h with
  | numberLeft h => exact .numberRight h
  | numberRight h => exact .numberLeft h
  | sameUnit hp hsame =>
    rw [hsame, Int.add_comm]
    exact .sameUnit (hsame ▸ hp) hsame.symm
  | lengthLeft hd he => exact .lengthRight he hd
  | lengthRight hd he => exact .lengthLeft he hd

/-! ### Power zero -/

/-- A physical unit of power zero leaves a number. -/
def reduced (d : Dimension) : Dimension :=
  if d.power = 0 ∧ d.unit.isPhysical = true then ⟨.number, 0⟩ else d

theorem reduced_power (d : Dimension) : d.reduced.power = d.power := by
  unfold reduced
  split
  · rename_i h
    exact h.1.symm
  · rfl

/-- Only a physical unit of power zero is changed. -/
theorem reduced_eq_self_iff : d.reduced = d ↔ d.unit.isNumeric = true ∨ d.power ≠ 0 := by
  unfold reduced
  rw [BaseUnit.isNumeric_eq_not_isPhysical, Bool.not_eq_true']
  split
  · rename_i h
    have hne : (⟨.number, 0⟩ : Dimension) ≠ d := by
      rintro rfl
      cases h.2
    simp [hne, h.1, h.2]
  · rename_i h
    simp only [true_iff]
    rw [not_and_or] at h
    rcases h with h | h
    · exact .inr h
    · exact .inl (by simpa using h)

end Dimension

namespace Quantity

variable {q r : Quantity} {d e : Dimension}

structure HasDimension (q : Quantity) (d : Dimension) : Prop where
  unit : q.unit = .unit d.unit
  power : q.power = .ofInt d.power

theorem HasDimension.unique (hd : q.HasDimension d) (he : q.HasDimension e) : d = e := by
  have hunit : UnitSlot.unit d.unit = .unit e.unit := hd.unit.symm.trans he.unit
  have hpower : Power.ofInt d.power = .ofInt e.power := hd.power.symm.trans he.power
  cases d
  cases e
  cases hunit
  cases hpower
  rfl

theorem hasDimension_commit (q : Quantity) (x : Binary64) (d : Dimension) :
    (q.commit x (.unit d.unit) (.ofInt d.power)).HasDimension d := ⟨rfl, rfl⟩

/-- What is combined follows the rules for two factors. -/
theorem HasDimension.joins {f : Factors} {combine : Int → Int → Int}
    (hf : ∀ i j, f.powers (.ofInt i) (.ofInt j) = .ok (.ofInt (combine i j)))
    (hq : q.HasDimension d) (hr : r.HasDimension e) {s : UnitSlot} {p : Power}
    (h : combineUnits f q r = .ok (s, p)) :
    ∃ g, Dimension.Joins combine d e g ∧ s = .unit g.unit ∧ p = .ofInt g.power := by
  simp only [combineUnits, hq.unit, hq.power, hr.unit, hr.power, hf, UnitSlot.isIn_unit, ok_bind,
    UnitSlot.holds, UnitSlot.identical, beq_iff_eq] at h
  split at h
  · rename_i hnumber
    cases h
    exact ⟨e, .numberLeft hnumber, rfl, rfl⟩
  split at h
  · rename_i hnumber
    cases h
    exact ⟨d, .numberRight hnumber, rfl, rfl⟩
  rename_i hd he
  split at h
  · rename_i hdunit
    split at h
    · split at h
      · cases h
      · rename_i heunit hsame
        cases h
        exact ⟨_, .sameUnit hdunit (by simpa using hsame), rfl, rfl⟩
    · rename_i heunit
      split at h
      · cases h
      · rename_i hlength
        cases h
        have hrelative := BaseUnit.isRelativeLength_of he heunit
        exact ⟨d, .lengthLeft (by simpa using hlength) hrelative, rfl, rfl⟩
  split at h
  · rename_i hdunit hlength
    cases h
    exact ⟨e, .lengthRight (BaseUnit.isRelativeLength_of hd hdunit) hlength, rfl, rfl⟩
  · cases h

theorem reduceUnit_eq (h : d.IsLegal) :
    reduceUnit (.unit d.unit) (.ofInt d.power) = .ok (.unit d.reduced.unit) := by
  simp only [reduceUnit, UnitSlot.isIn_unit, ok_bind, Power.isInt_ofInt]
  unfold Dimension.reduced
  cases hn : d.unit.isNumeric with
  | true =>
    have hp : d.unit.isPhysical = false := by
      simpa [BaseUnit.isNumeric_eq_not_isPhysical] using hn
    simp [h hn, hp, pure, Except.pure]
  | false =>
    have hp : d.unit.isPhysical = true := by
      simpa [BaseUnit.isNumeric_eq_not_isPhysical] using hn
    by_cases h0 : d.power = 0
    · simp [h0, hp, pure, Except.pure]
    · simp [h0, pure, Except.pure]

/-- A factor keeps its base unit: its power is zero only without a dimension. -/
theorem reduceUnit_of_isFactor (h : d.IsFactor) :
    reduceUnit (.unit d.unit) (.ofInt d.power) = .ok (.unit d.unit) := by
  have hself : d.reduced = d := by
    rw [Dimension.reduced_eq_self_iff, BaseUnit.isNumeric_eq_not_isPhysical]
    cases hp : d.unit.isPhysical with
    | true =>
      have hpos : 1 ≤ d.power := h.2 hp
      exact .inr (by omega)
    | false => exact .inl rfl
  rw [reduceUnit_eq h.1, hself]

theorem HasDimension.multiply (hq : q.HasDimension d) (hr : r.HasDimension e) (hd : d.IsFactor)
    (he : e.IsFactor) {next : Quantity} (h : q.multiply (.quantity r) = .ok next) :
    ∃ g, Dimension.Joins (· + ·) d e g ∧ g.IsFactor ∧ next.HasDimension g := by
  obtain ⟨⟨s, p⟩, hs, h⟩ := bind_eq_ok.1 h
  obtain ⟨g, hg, rfl, rfl⟩ := hq.joins (f := .product) (fun _ _ => rfl) hr hs
  have hfactor : g.IsFactor := hd.joins he hg
  obtain ⟨unit, hunit, h⟩ := bind_eq_ok.1 h
  rw [reduceUnit_of_isFactor hfactor] at hunit
  cases hunit
  cases h
  exact ⟨g, hg, hfactor, hasDimension_commit q _ g⟩

end Quantity

end Measures
