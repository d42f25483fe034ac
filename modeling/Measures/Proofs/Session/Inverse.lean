import Measures.Proofs.Scalar.Inverse
import Measures.Proofs.Session.Rules

/-!
# Differences undo sums, and opposites cancel
-/

namespace Measures

open Binary64 (zero)

namespace Quantity

variable {strict : Prop} {q r : Quantity} {d e : Dimension} {u : BaseUnit} {x y z : Binary64}

/-! ## Values -/

theorem settle_add_sub (hx : x.isFinite = true) (hy : y.isFinite = true) (hz : z.isFinite = true)
    (h : z.toRat = x.toRat + y.toRat)
    (hxr : u = .degrees → Scalar.IsReduced Scalar.fullTurn x)
    (hyr : u = .degrees → Scalar.IsReduced Scalar.fullTurn y) :
    (settle u (settle u (x + y) - y)).equal x = true := by
  unfold settle
  split
  · next hu =>
    rw [Scalar.wrapTurn_add_sub hx hy hz h (hxr hu) (hyr hu)]
    exact Binary64.equal_of_toRat hx hx rfl
  · exact Binary64.add_sub_equal hx hy hz h

/-- A value and its opposite make nothing, unless they are of an angle that is so small that its
opposite is nothing. -/
theorem settle_neg_add (hx : x.isFinite = true)
    (hxr : u = .degrees → Scalar.IsReduced Scalar.fullTurn x) :
    if u = .degrees ∧ 0 < x.toRat ∧ x.toRat ≤ 1 / 2 ^ 45 then
      settle u x.neg = zero false ∧ settle u (settle u x.neg + x) = x
    else settle u (settle u x.neg + x) = zero false := by
  unfold settle
  by_cases hu : u = .degrees
  · have hopposite := Scalar.opposite_add hx (hxr hu)
    simpa only [hu, true_and, if_true] using hopposite
  · simp only [hu, false_and, if_false]
    exact Binary64.neg_add_self hx

/-! ## Quantities -/

/-- An angle so small that a full turn less the angle is rounded to a full turn. -/
def IsTiny (q : Quantity) : Prop :=
  q.unit.holds .degrees = true ∧ 0 < q.value.toRat ∧ q.value.toRat ≤ 1 / 2 ^ 45

instance (q : Quantity) : Decidable q.IsTiny := inferInstanceAs (Decidable (_ ∧ _ ∧ _))

theorem HasDimension.isTiny_iff (hq : q.HasDimension d) :
    q.IsTiny ↔ d.unit = .degrees ∧ 0 < q.value.toRat ∧ q.value.toRat ≤ 1 / 2 ^ 45 := by
  unfold IsTiny
  rw [hq.unit, UnitSlot.holds, beq_iff_eq]

theorem HasDimension.negate_eq (hq : q.HasDimension d) :
    q.negate = q.measured q.value.neg d := by
  unfold negate
  rw [hq.unit, hq.power, commit_eq_measured]

theorem HasDimension.measured_eq (hq : q.HasDimension d) (x : Binary64) :
    q.measured x d = { q with value := settle d.unit x } := by
  unfold measured
  rw [← hq.unit, ← hq.power]

theorem Sound.exists_reduced (hq : q.Sound strict) : ∃ d, q.HasDimension d ∧
    (d.unit = .degrees → Scalar.IsReduced Scalar.fullTurn q.value) := by
  obtain ⟨u, p, hunit, hpower, -, hreduced⟩ := hq
  exact ⟨⟨u, p⟩, ⟨hunit, hpower⟩, hreduced⟩

theorem HasDimension.eq_of_same (hq : q.HasDimension d) (hr : r.HasDimension e)
    (hunit : q.unit = r.unit) (hpower : q.power = r.power) : d = e :=
  hq.unique ⟨hunit.trans hr.unit, hpower.trans hr.power⟩

end Quantity

namespace Session

variable {registry : Except Fault Registry} {s : Session} {q r next : Quantity} {n m : String}
  {verb : Verb} {c : Argument → Change}

theorem step_combined (hc : IsForm verb c) (hq : s.get? n = some q) (hr : s.get? m = some r)
    (h : q.apply verb (.quantity r) = .ok next) :
    s.step registry (.change n (c (.named m))) = (.ok .changed, s.put n next) :=
  step_change_of_ok ((changed_named hc hq hr).trans h)

/-! ## Sums undone -/

/-- A sum that is a number is undone by a difference with what was added, of which a copy has to be
kept if a quantity is added to itself. -/
theorem difference_undoes_sum_of_run {requests : List Request}
    (ho : ∀ r ∈ requests, ¬ r.step.Overwrites) :
    ∀ o ∈ empty.trace requests, ∀ n m q r, o.2.get? n = some q → o.2.get? m = some r →
      q.unit = r.unit → q.power = r.power → q.value.isFinite = true → r.value.isFinite = true →
      (∃ z : Binary64, z.isFinite = true ∧ z.toRat = q.value.toRat + r.value.toRat) →
      ∀ registry kept c c', kept ≠ n → IsForm .add c → IsForm .subtract c' →
        let copied := o.2.step registry (.copy m kept)
        let added := copied.2.step registry (.change n (c (.named m)))
        let undone := added.2.step registry (.change n (c' (.named kept)))
        added.1 = .ok .changed ∧ undone.1 = .ok .changed ∧
          ∃ x, undone.2.get? n = some { q with value := x } ∧ x.equal q.value = true := by
  intro o hmem n m q r hq hr hunit hpower hx hy ⟨z, hz, hsum⟩ registry kept c c' hne hc hc' copied
    added undone
  have hs : o.2.Sound False := Sound.trace all_empty ho nofun o hmem
  obtain ⟨d, hqd, hqreduced⟩ := (hs n q hq).exists_reduced
  obtain ⟨e, hre, hrreduced⟩ := (hs m r hr).exists_reduced
  obtain rfl := hqd.eq_of_same hre hunit hpower
  have hcopied : copied = _ := step_copy_of_get? hr kept
  have hq₁ : copied.2.get? n = some q := by
    rw [hcopied, get?_put_of_ne hne.symm, hq]
  -- A copy under the name of the second quantity itself changes nothing.
  have hr₁ : copied.2.get? m = some r := by
    rw [hcopied, get?_put, hr, ite_self]
  have hadded : added = _ :=
    step_combined hc hq₁ hr₁ (hqd.addWith_of_eq hre .add (· + ·))
  have hq₂ : added.2.get? n = some (q.measured (q.value + r.value) d) := by
    rw [hadded]
    exact get?_put_self _ n _
  have hr₂ : added.2.get? kept = some r := by
    rw [hadded, get?_put_of_ne hne, hcopied]
    exact get?_put_self _ kept _
  have hmeasured := Quantity.hasDimension_measured q (q.value + r.value) d
  have hundone : undone = _ :=
    step_combined hc' hq₂ hr₂ (hmeasured.addWith_of_eq hre .subtract (· - ·))
  refine ⟨congrArg Prod.fst hadded, congrArg Prod.fst hundone, _, ?_,
    Quantity.settle_add_sub hx hy hz hsum hqreduced hrreduced⟩
  rw [hundone, get?_put_self]
  exact congrArg some (hqd.measured_eq _)

/-- Two angles whose sum goes past the full turn. -/
def pastTurn : List Request :=
  [.make (.ofFloat .angle (.int 0) (.ofInt 350) none) "a",
    .make (.ofFloat .angle (.int 0) (.ofInt 20) none) "b"].map fun action => ⟨.ok .empty, action⟩

theorem difference_undoes_sum_of_run_pastTurn :
    (∀ r ∈ pastTurn, ¬ r.step.Overwrites) ∧ ∃ o ∈ empty.trace pastTurn, ∃ q r,
      o.2.get? "a" = some q ∧ o.2.get? "b" = some r ∧ q.value = .ofInt 350 ∧
      let copied := o.2.step (.ok .empty) (.copy "b" "kept")
      let added := copied.2.step (.ok .empty) (.change "a" (.apply .add (.named "b")))
      let undone := added.2.step (.ok .empty) (.change "a" (.operator .subtract (.named "kept")))
      (added.2.get? "a").map (·.value) = some (.ofInt 10) ∧
        ∃ x, undone.2.get? "a" = some { q with value := x } ∧ x.equal q.value = true := by
  have ho : ∀ r ∈ pastTurn, ¬ r.step.Overwrites := by
    simp [pastTurn, Recipe.ofFloat, Step.Overwrites]
  have hmem : _ ∈ empty.trace pastTurn := List.mem_of_getLast? rfl
  refine ⟨ho, _, hmem, _, _, rfl, rfl, by decide +kernel, by decide +kernel, ?_⟩
  exact (difference_undoes_sum_of_run ho _ hmem "a" "b" _ _ rfl rfl
    (Eq.trans (b := .unit .degrees) rfl rfl) (Eq.trans (b := .ofInt 1) rfl rfl) (by decide +kernel)
    (by decide +kernel) ⟨.ofInt 370, by decide +kernel, by decide +kernel⟩ (.ok .empty) "kept" _ _
    (by decide) (.inl rfl) (.inr rfl)).2.2

/-! ## Opposites -/

/-- A quantity and its opposite make nothing, and the quantity stays as it is; a tiny angle has
nothing as its opposite. -/
theorem opposite_cancels_of_run {requests : List Request}
    (ho : ∀ r ∈ requests, ¬ r.step.Overwrites) :
    ∀ o ∈ empty.trace requests, ∀ n q, o.2.get? n = some q → q.value.isFinite = true →
      ∀ registry m c, m ≠ n → IsForm .add c →
        let opposed := o.2.step registry (.opposite n m)
        let added := opposed.2.step registry (.change m (c (.named n)))
        opposed.1 = .ok (.copied q.negate) ∧ added.1 = .ok .changed ∧
          opposed.2.get? n = some q ∧ added.2.get? n = some q ∧
          ∃ r, added.2.get? m = some r ∧
            (q.IsTiny → q.negate.value = zero false ∧ r.value = q.value) ∧
            (¬ q.IsTiny → r.value = zero false) := by
  intro o hmem n q hq hx registry m c hne hc opposed added
  have hs : o.2.Sound False := Sound.trace all_empty ho nofun o hmem
  obtain ⟨d, hqd, hreduced⟩ := (hs n q hq).exists_reduced
  have hopposed : opposed = _ := step_opposite_of_get? hq m
  have hnegate : q.negate = q.measured q.value.neg d := hqd.negate_eq
  have hq₁ : opposed.2.get? n = some q := by
    rw [hopposed, get?_put_of_ne hne.symm, hq]
  have hr₁ : opposed.2.get? m = some (q.measured q.value.neg d) := by
    rw [hopposed, hnegate]
    exact get?_put_self _ m _
  have hmeasured := Quantity.hasDimension_measured q q.value.neg d
  obtain ⟨next, hnext, hvalue⟩ : ∃ next,
      (q.measured q.value.neg d).apply .add (.quantity q) = .ok next ∧
        next.value = Quantity.settle d.unit (Quantity.settle d.unit q.value.neg + q.value) :=
    ⟨_, hmeasured.addWith_of_eq hqd .add (· + ·), rfl⟩
  have hadded : added = (.ok .changed, opposed.2.put m next) := step_combined hc hr₁ hq₁ hnext
  have hq₂ : added.2.get? n = some q := by
    rw [hadded, get?_put_of_ne hne.symm, hq₁]
  have hr₂ : added.2.get? m = some next := by
    rw [hadded]
    exact get?_put_self _ m next
  have hcancel := Quantity.settle_neg_add hx hreduced
  refine ⟨congrArg Prod.fst hopposed, congrArg Prod.fst hadded, hq₁, hq₂, next, hr₂, ?_⟩
  rw [hnegate, hvalue, hqd.isTiny_iff]
  constructor
  · intro htiny
    rw [if_pos htiny] at hcancel
    exact hcancel
  · intro htiny
    rw [if_neg htiny] at hcancel
    exact hcancel

/-- An angle and the greatest angle that has nothing as its opposite. -/
def opposing : List Request :=
  [.make (.ofFloat .angle (.int 0) (.ofDecimal false [1] (-1)) none) "a",
    .make (.ofFloat .angle (.int 0) (.ofRatio false Binary64.one (2 ^ 45)) none) "b"].map
    fun action => ⟨.ok .empty, action⟩

theorem opposite_cancels_of_run_opposing :
    (∀ r ∈ opposing, ¬ r.step.Overwrites) ∧ ∃ o ∈ empty.trace opposing, ∃ a b,
      o.2.get? "a" = some a ∧ o.2.get? "b" = some b ∧
      let sum n := ((o.2.step (.ok .empty) (.opposite n "sum")).2.step (.ok .empty)
        (.change "sum" (.apply .add (.named n)))).2.get? "sum"
      (∃ r, sum "a" = some r ∧ r.value = zero false) ∧
        a.negate.value = .ofDecimal false [3, 5, 9, 9] (-1) ∧
        (∃ r, sum "b" = some r ∧ r.value = b.value) ∧ b.negate.value = zero false := by
  have ho : ∀ r ∈ opposing, ¬ r.step.Overwrites := by
    simp [opposing, Recipe.ofFloat, Step.Overwrites]
  have hmem : _ ∈ empty.trace opposing := List.mem_of_getLast? rfl
  refine ⟨ho, _, hmem, _, _, rfl, rfl, ?_, by decide +kernel, ?_, by decide +kernel⟩
  · obtain ⟨-, -, -, -, r, hr, -, hcancels⟩ := opposite_cancels_of_run ho _ hmem "a" _ rfl
      (by decide +kernel) (.ok .empty) "sum" _ (by decide) (.inl rfl)
    exact ⟨r, hr, hcancels (by decide +kernel)⟩
  · obtain ⟨-, -, -, -, r, hr, hstays, -⟩ := opposite_cancels_of_run ho _ hmem "b" _ rfl
      (by decide +kernel) (.ok .empty) "sum" _ (by decide) (.inl rfl)
    exact ⟨r, hr, (hstays (by decide +kernel)).2⟩

end Session

end Measures
