import Mathlib.Algebra.BigOperators.Group.Multiset.Basic
import Measures.Proofs.Quantity.Dimension

/-!
# Products of many factors

However a product is bracketed and in whatever order its factors stand: if it can be evaluated at
all, the dimensions of the factors alone decide on the dimension of the result.
-/

namespace Measures

/-! ## Dimensions together -/

namespace Dimension

variable {ds es : Multiset Dimension} {d e f : Dimension} {u : BaseUnit}

/-- The sum of the powers of one base unit. -/
def powerOf (u : BaseUnit) (ds : Multiset Dimension) : Int :=
  ((ds.filter (·.unit = u)).map (·.power)).sum

/-- What the dimensions of factors come to together. -/
inductive Gathers (ds : Multiset Dimension) : Dimension → Prop
  /-- With a length among them it is a length, and there is no other physical unit. -/
  | length (h : ∃ d ∈ ds, d.unit = .millipoints)
    (hunits : ∀ d ∈ ds, d.unit.isPhysical = true → d.unit = .millipoints) :
    Gathers ds ⟨.millipoints, powerOf .millipoints ds⟩
  /-- Any other physical unit stands with itself and with numbers only. -/
  | unit {u : BaseUnit} (hu : u.isNotLength = true) (h : ∃ d ∈ ds, d.unit = u)
    (hunits : ∀ d ∈ ds, d.unit = u ∨ d.unit = .number) : Gathers ds ⟨u, powerOf u ds⟩
  /-- A relative length stands alone among numbers. -/
  | relative {u : BaseUnit} (hu : u.isRelativeLength = true) {others : Multiset Dimension}
    (h : ds = ⟨u, 0⟩ ::ₘ others) (hothers : ∀ d ∈ others, d.unit = .number) : Gathers ds ⟨u, 0⟩
  | number (h : ∀ d ∈ ds, d.unit = .number) : Gathers ds ⟨.number, 0⟩

theorem powerOf_add (u : BaseUnit) (ds es : Multiset Dimension) :
    powerOf u (ds + es) = powerOf u ds + powerOf u es := by
  simp [powerOf]

theorem powerOf_eq_zero (h : ∀ d ∈ ds, d.unit ≠ u) : powerOf u ds = 0 := by
  rw [powerOf, Multiset.filter_eq_nil.2 h]
  rfl

theorem powerOf_singleton (u : BaseUnit) (p : Int) : powerOf u {⟨u, p⟩} = p := by
  simp [powerOf, Multiset.filter_singleton]

/-- One factor gathers to itself. -/
theorem IsFactor.gathers (h : d.IsFactor) : Gathers {d} d := by
  obtain ⟨u, p⟩ := d
  cases hp : u.isPhysical with
  | true =>
    have hmem : ∃ x ∈ ({⟨u, p⟩} : Multiset Dimension), x.unit = u :=
      ⟨⟨u, p⟩, Multiset.mem_singleton_self _, rfl⟩
    rcases u.isPhysical_iff.1 hp with rfl | hu
    · have hgathers := Gathers.length hmem (by simp)
      rwa [powerOf_singleton] at hgathers
    · have hgathers := Gathers.unit hu hmem (by simp)
      rwa [powerOf_singleton] at hgathers
  | false =>
    have hnumeric : u.isNumeric = true := by simp [BaseUnit.isNumeric_eq_not_isPhysical, hp]
    obtain rfl : p = 0 := h.1 hnumeric
    rcases u.isNumeric_iff.1 hnumeric with rfl | hu
    · exact .number (by simp)
    · have hone : ({⟨u, 0⟩} : Multiset Dimension) = ⟨u, 0⟩ ::ₘ 0 := rfl
      exact .relative hu hone (by simp)

/-! ### One more factor -/

theorem forall_mem_add {P : Dimension → Prop} (hds : ∀ d ∈ ds, P d) (hes : ∀ d ∈ es, P d) :
    ∀ d ∈ ds + es, P d := by
  intro d hd
  exact (Multiset.mem_add.1 hd).elim (hds d) (hes d)

/-- What gathers to a number is made of numbers. -/
theorem Gathers.numbers (h : Gathers ds d) (hd : d.unit = .number) :
    ∀ x ∈ ds, x.unit = .number := by
  cases h with
  | length _ _ => cases hd
  | unit hu _ _ | relative hu _ _ =>
    subst hd
    cases hu
  | number h => exact h

/-- Numbers add nothing. -/
theorem Gathers.add_numbers (h : Gathers ds d) (hes : ∀ x ∈ es, x.unit = .number) :
    Gathers (ds + es) d := by
  have hpower {u : BaseUnit} (hu : u ≠ .number) : powerOf u ds = powerOf u (ds + es) := by
    have hzero : powerOf u es = 0 := powerOf_eq_zero fun x hx he => hu (he.symm.trans (hes x hx))
    rw [powerOf_add, hzero, Int.add_zero]
  cases h with
  | length h hunits =>
    obtain ⟨x, hx, hxu⟩ := h
    rw [hpower (by decide)]
    refine .length ⟨x, Multiset.mem_add.2 (.inl hx), hxu⟩ (forall_mem_add hunits ?_)
    intro y hy hp
    rw [hes y hy] at hp
    cases hp
  | unit hu h hunits =>
    obtain ⟨x, hx, hxu⟩ := h
    rw [hpower (by rintro rfl; cases hu)]
    exact .unit hu ⟨x, Multiset.mem_add.2 (.inl hx), hxu⟩
      (forall_mem_add hunits fun y hy => .inr (hes y hy))
  | @relative u hu others h hothers =>
    have hcons : ds + es = ⟨u, 0⟩ ::ₘ (others + es) := by rw [h, Multiset.cons_add]
    exact .relative hu hcons (forall_mem_add hothers hes)
  | number h => exact .number (forall_mem_add h hes)

/-! ### Factors of a unit -/

theorem Gathers.lengths (h : Gathers ds d) (hd : d.unit = .millipoints) :
    (∃ x ∈ ds, x.unit = .millipoints) ∧
      (∀ x ∈ ds, x.unit.isPhysical = true → x.unit = .millipoints) ∧
      d.power = powerOf .millipoints ds := by
  cases h with
  | length h hunits => exact ⟨h, hunits, rfl⟩
  | unit hu _ _ | relative hu _ _ =>
    subst hd
    cases hu
  | number _ => cases hd

theorem Gathers.likes (h : Gathers ds d) (hd : d.unit.isNotLength = true) :
    (∃ x ∈ ds, x.unit = d.unit) ∧ (∀ x ∈ ds, x.unit = d.unit ∨ x.unit = .number) ∧
      d.power = powerOf d.unit ds := by
  cases h with
  | unit _ h hunits => exact ⟨h, hunits, rfl⟩
  | relative hu _ _ =>
    have hp := BaseUnit.isPhysical_of_isNotLength hd
    exact absurd hp (BaseUnit.not_isPhysical_of_isRelativeLength hu)
  | length _ _ | number _ => cases hd

/-- A relative length has no physical unit among its factors. -/
theorem Gathers.not_physical (h : Gathers ds d) (hd : d.unit.isRelativeLength = true) :
    ∀ x ∈ ds, ¬ x.unit.isPhysical = true := by
  cases h with
  | relative _ h hothers =>
    intro x hx
    rw [h] at hx
    rcases Multiset.mem_cons.1 hx with rfl | hx
    · exact BaseUnit.not_isPhysical_of_isRelativeLength hd
    · rw [hothers x hx]
      decide
  | unit hu _ _ =>
    have hp := BaseUnit.isPhysical_of_isNotLength hu
    exact absurd hp (BaseUnit.not_isPhysical_of_isRelativeLength hd)
  | length _ _ | number _ => cases hd

/-- A length times a relative length gathers as the length does. -/
theorem Gathers.add_relative (hd : Gathers ds d) (he : Gathers es e) (hdu : d.unit = .millipoints)
    (heu : e.unit.isRelativeLength = true) : Gathers (ds + es) d := by
  obtain ⟨⟨x, hx, hxu⟩, hunits, hpower⟩ := hd.lengths hdu
  have hnot := he.not_physical heu
  have hzero : powerOf .millipoints es = 0 :=
    powerOf_eq_zero fun y hy hyu => hnot y hy (hyu ▸ rfl)
  have hd : d = ⟨.millipoints, powerOf .millipoints (ds + es)⟩ := by
    rw [powerOf_add, hzero, Int.add_zero, ← hpower, ← hdu]
  rw [hd]
  exact .length ⟨x, Multiset.mem_add.2 (.inl hx), hxu⟩
    (forall_mem_add hunits fun y hy hp => absurd hp (hnot y hy))

/-- Equal physical units add their powers. -/
theorem Gathers.add_same (hd : Gathers ds d) (he : Gathers es e) (hp : d.unit.isPhysical = true)
    (hu : d.unit = e.unit) : Gathers (ds + es) ⟨d.unit, d.power + e.power⟩ := by
  rcases (BaseUnit.isPhysical_iff _).1 hp with hlength | hother
  · obtain ⟨⟨x, hx, hxu⟩, hunits, hpower⟩ := hd.lengths hlength
    obtain ⟨-, hunits', hpower'⟩ := he.lengths (hu ▸ hlength)
    rw [hpower, hpower', hlength, ← powerOf_add]
    exact .length ⟨x, Multiset.mem_add.2 (.inl hx), hxu⟩ (forall_mem_add hunits hunits')
  · obtain ⟨⟨x, hx, hxu⟩, hunits, hpower⟩ := hd.likes hother
    obtain ⟨-, hunits', hpower'⟩ := he.likes (hu ▸ hother)
    rw [hpower, hpower', ← hu, ← powerOf_add]
    exact .unit hother ⟨x, Multiset.mem_add.2 (.inl hx), hxu⟩
      (forall_mem_add hunits fun y hy => hu ▸ hunits' y hy)

theorem Gathers.joins (hd : Gathers ds d) (he : Gathers es e) (h : Joins (· + ·) d e f) :
    Gathers (ds + es) f := by
  cases h with
  | numberLeft hn =>
    rw [add_comm]
    exact he.add_numbers (hd.numbers hn)
  | numberRight hn => exact hd.add_numbers (he.numbers hn)
  | sameUnit hp hu => exact hd.add_same he hp hu
  | lengthLeft hdu heu => exact hd.add_relative he hdu heu
  | lengthRight hdu heu =>
    rw [add_comm]
    exact he.add_relative hd heu hdu

/-! ### No second dimension -/

theorem Gathers.exists_mem (h : Gathers ds d) (hd : d.unit ≠ .number) :
    ∃ x ∈ ds, x.unit = d.unit := by
  cases h with
  | length h _ | unit _ h _ => exact h
  | relative _ h _ => exact ⟨_, h ▸ Multiset.mem_cons_self _ _, rfl⟩
  | number _ => exact absurd rfl hd

/-- A factor with a unit has the unit of the whole, or is a part of the length that the whole is. -/
theorem Gathers.unit_of_mem (h : Gathers ds d) {x : Dimension} (hx : x ∈ ds)
    (hn : x.unit ≠ .number) :
    d.unit = x.unit ∨ d.unit = .millipoints ∧ x.unit.isRelativeLength = true := by
  cases h with
  | length _ hunits =>
    by_cases hp : x.unit.isPhysical = true
    · exact .inl (hunits x hx hp).symm
    · exact .inr ⟨rfl, BaseUnit.isRelativeLength_of hn hp⟩
  | unit _ _ hunits => exact .inl ((hunits x hx).resolve_right hn).symm
  | relative _ h hothers =>
    rw [h] at hx
    rcases Multiset.mem_cons.1 hx with rfl | hx
    · exact .inl rfl
    · exact absurd (hothers x hx) hn
  | number h => exact absurd (h x hx) hn

theorem Gathers.unit_eq (hd : Gathers ds d) (he : Gathers ds e) : d.unit = e.unit := by
  by_cases hn : d.unit = .number
  · rw [hn]
    by_contra hne
    obtain ⟨x, hx, hxu⟩ := he.exists_mem (Ne.symm hne)
    exact hne ((hd.numbers hn x hx).symm.trans hxu)
  · obtain ⟨x, hx, hxu⟩ := hd.exists_mem hn
    rcases he.unit_of_mem hx (hxu ▸ hn) with heq | ⟨hlength, hrelative⟩
    · exact hxu.symm.trans heq.symm
    · -- The whole is a length by one reading and a relative length by the other.
      obtain ⟨y, hy, hyu⟩ := he.exists_mem (by rw [hlength]; decide)
      rw [hlength] at hyu
      rw [hxu] at hrelative
      exact absurd (hyu ▸ rfl) (hd.not_physical hrelative y hy)

theorem Gathers.power_eq (h : Gathers ds d) :
    d.power = if d.unit.isPhysical then powerOf d.unit ds else 0 := by
  cases h with
  | length _ _ => rfl
  | unit hu _ _ => rw [if_pos (BaseUnit.isPhysical_of_isNotLength hu)]
  | relative hu _ _ => rw [if_neg (BaseUnit.not_isPhysical_of_isRelativeLength hu)]
  | number _ => rfl

/-- Factors do not gather to two dimensions. -/
theorem Gathers.unique (hd : Gathers ds d) (he : Gathers ds e) : d = e := by
  have hunit := hd.unit_eq he
  have hpower : d.power = e.power := by rw [hd.power_eq, he.power_eq, hunit]
  cases d
  cases e
  exact congrArg₂ Dimension.mk hunit hpower

end Dimension

/-! ## Trees of products -/

namespace Quantity

/-- A quantity that is a number, a relative length or a positive power of a physical unit. -/
structure Factor where
  quantity : Quantity
  dimension : Dimension
  hasDimension : quantity.HasDimension dimension
  isFactor : dimension.IsFactor

/-- A product with all its brackets. -/
inductive Product where
  | factor (f : Factor)
  | times (left right : Product)

namespace Product

/-- Each product is formed of the two sides as they are evaluated, the left one multiplied by the
right one. -/
def evaluate : Product → Except Fault Quantity
  | factor f => .ok f.quantity
  | times left right => do
    let q ← left.evaluate
    let r ← right.evaluate
    q.multiply (.quantity r)

def dimensions : Product → Multiset Dimension
  | factor f => {f.dimension}
  | times left right => left.dimensions + right.dimensions

variable {t : Product} {q : Quantity}

theorem evaluate_gathers (h : t.evaluate = .ok q) :
    ∃ d, q.HasDimension d ∧ d.IsFactor ∧ Dimension.Gathers t.dimensions d := by
  induction t generalizing q with
  | factor f =>
    cases h
    exact ⟨f.dimension, f.hasDimension, f.isFactor, f.isFactor.gathers⟩
  | times left right ihl ihr =>
    obtain ⟨a, ha, h⟩ := bind_eq_ok.1 h
    obtain ⟨b, hb, h⟩ := bind_eq_ok.1 h
    obtain ⟨d, had, hd, hgd⟩ := ihl ha
    obtain ⟨e, hbe, he, hge⟩ := ihr hb
    obtain ⟨f, hjoins, hf, hqf⟩ := had.multiply hbe hd he h
    exact ⟨f, hqf, hf, hgd.joins hge hjoins⟩

/-- Of a product that can be evaluated the dimensions of the factors decide on the base unit and the
power: brackets and order do not. -/
theorem product_dimension (h : t.evaluate = .ok q) :
    (∃ d, q.HasDimension d ∧ Dimension.Gathers t.dimensions d) ∧
      ∀ t' q', t'.dimensions = t.dimensions → Product.evaluate t' = .ok q' →
        q'.unit = q.unit ∧ q'.power = q.power := by
  obtain ⟨d, hd, -, hgathers⟩ := evaluate_gathers h
  refine ⟨⟨d, hd, hgathers⟩, fun t' q' ht h' => ?_⟩
  obtain ⟨e, he, -, hgathers'⟩ := evaluate_gathers h'
  rw [ht] at hgathers'
  obtain rfl := hgathers.unique hgathers'
  exact ⟨he.unit.trans hd.unit.symm, he.power.trans hd.power.symm⟩

/-- A factor as it is made from a base unit and a power. -/
def made (x : Binary64) (u : BaseUnit) (p : Int) (h : (⟨u, p⟩ : Dimension).IsFactor) : Product :=
  .factor ⟨ofParts (.int 0) x u p .none, ⟨u, p⟩, ⟨rfl, rfl⟩, h⟩

def half : Product := made (.ofRatio false Binary64.one 2) .percentage 0 (by decide)

def inch : Product := made (.ofInt 72000) .millipoints 1 (by decide)

/-- Halves of halves are not formed, but half of half an inch is, in either order. -/
theorem product_dimension_inch :
    (∃ f, (times (times half half) inch).evaluate = .error f) ∧
      ∃ q q', (times half (times half inch)).evaluate = .ok q ∧
        (times (times inch half) half).evaluate = .ok q' ∧
        (∃ d, q.HasDimension d ∧ Dimension.Gathers {⟨.percentage, 0⟩, ⟨.percentage, 0⟩,
          ⟨.millipoints, 1⟩} d) ∧
        q'.unit = q.unit ∧ q'.power = q.power := by
  have h : (times half (times half inch)).evaluate = .ok _ := rfl
  have h' : (times (times inch half) half).evaluate = .ok _ := rfl
  obtain ⟨hd, hall⟩ := product_dimension h
  exact ⟨⟨_, rfl⟩, _, _, h, h', hd, hall _ _ (by decide) h'⟩

end Product

end Quantity

end Measures
