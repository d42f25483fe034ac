import Measures.Proofs.Quantity.Rules
import Measures.Proofs.Session.Surface
import Measures.Proofs.Session.Validation

/-!
# The rules of the algebra at every time of a run

Every quantity that a run comes to has a dimension, so that the steps of a run follow the rules for
dimensions, whatever has been done before.
-/

namespace Measures

open Quantity (HasDimension)

namespace Session

variable {registry : Except Fault Registry} {s : Session} {q r : Quantity} {n m : String}
  {d e : Dimension} {verb : Verb} {c : Argument → Change}

theorem exists_dimension_of_run {requests : List Request}
    (ho : ∀ r ∈ requests, ¬ r.step.Overwrites) {o : Except Fault Answer × Session}
    (hmem : o ∈ empty.trace requests) (hq : o.2.get? n = some q) :
    ∃ d, q.HasDimension d ∧ d.IsLegal := by
  have hs : o.2.Sound False := Sound.trace all_empty ho nofun o hmem
  exact (hs n q hq).exists_dimension

/-! ## Exchanged sides -/

/-- A sum or a product comes to the same with its sides exchanged: to one measure, which each order
writes to its own receiver, or to faults of one kind for one reason, and to no change. -/
theorem exchange_of_run {requests : List Request} (ho : ∀ r ∈ requests, ¬ r.step.Overwrites) :
    ∀ o ∈ empty.trace requests, ∀ n m q r, o.2.get? n = some q → o.2.get? m = some r →
      ∀ registry verb c, verb = .add ∨ verb = .multiply → IsForm verb c →
        let left := o.2.step registry (.change n (c (.named m)))
        let right := o.2.step registry (.change m (c (.named n)))
        (∃ q' r', left = (.ok .changed, o.2.put n q') ∧ right = (.ok .changed, o.2.put m r') ∧
          q'.SameMeasure r') ∨
        ∃ f g, left = (.error f, o.2) ∧ right = (.error g, o.2) ∧ f.kind = verb.mismatch ∧
          g.kind = verb.mismatch ∧ f.reason? = g.reason? := by
  intro o hmem n m q r hq hr registry verb c hv hc left right
  obtain ⟨d, hqd, hd⟩ := exists_dimension_of_run ho hmem hq
  obtain ⟨e, hre, he⟩ := exists_dimension_of_run ho hmem hr
  have hleft := changed_named hc hq hr
  have hright := changed_named hc hr hq
  rcases hqd.balanced_apply hv hre hd he with ⟨q', r', hx, hy, hsame⟩ | ⟨f, g, hx, hy, hfaults⟩
  · exact .inl ⟨q', r', step_change_of_ok (hleft.trans hx), step_change_of_ok (hright.trans hy),
      hsame⟩
  · exact .inr ⟨f, g, step_change_of_error (hleft.trans hx),
      step_change_of_error (hright.trans hy), hfaults⟩

/-- An angle and a number, which scales it past the full turn but is not added to it. -/
def tripling : List Request :=
  [.make (.ofFloat .angle (.int 0) (.ofInt 350) none) "a",
    .make (.ofFloat .number (.int 0) (.ofInt 3) none) "b"].map fun action => ⟨.ok .empty, action⟩

theorem exchange_of_run_tripling :
    (∀ r ∈ tripling, ¬ r.step.Overwrites) ∧ ∃ o ∈ empty.trace tripling,
      let outcome n verb m := o.2.step (.ok .empty) (.change n (.apply verb (.named m)))
      (∃ q r, outcome "a" .multiply "b" = (.ok .changed, o.2.put "a" q) ∧
        outcome "b" .multiply "a" = (.ok .changed, o.2.put "b" r) ∧ q.SameMeasure r ∧
        q.value = .ofInt 330) ∧
      ∃ f g, outcome "a" .add "b" = (.error f, o.2) ∧ outcome "b" .add "a" = (.error g, o.2) ∧
        f.reason? = g.reason? ∧ f.reason? = some .power := by
  have ho : ∀ r ∈ tripling, ¬ r.step.Overwrites := by
    simp [tripling, Recipe.ofFloat, Step.Overwrites]
  have hmem : _ ∈ empty.trace tripling := List.mem_of_getLast? rfl
  refine ⟨ho, _, hmem, ?_⟩
  have hrun := exchange_of_run ho _ hmem "a" "b" _ _ rfl rfl (.ok .empty)
  intro outcome
  constructor
  · rcases hrun .multiply _ (.inr rfl) (.inl rfl) with ⟨q, r, hleft, hright, hsame⟩ | ⟨f, _, h, -⟩
    · refine ⟨q, r, hleft, hright, hsame, ?_⟩
      have hvalue : (outcome "a" .multiply "b").2.get? "a" = some q := by
        rw [show outcome "a" .multiply "b" = _ from hleft]
        exact get?_put_self _ "a" q
      have hnumber : ((outcome "a" .multiply "b").2.get? "a").map (·.value)
          = some (.ofInt 330) := by decide +kernel
      rw [hvalue] at hnumber
      exact Option.some.inj hnumber
    · cases congrArg Prod.fst h
  · rcases hrun .add _ (.inl rfl) (.inl rfl) with ⟨q, _, h, -⟩ | ⟨f, g, hf, hg, -, -, hreason⟩
    · cases congrArg Prod.fst h
    · refine ⟨f, g, hf, hg, hreason, ?_⟩
      obtain rfl : Fault.differentPowers .add (.int 1) (.int 0) = f :=
        Except.error.inj (congrArg Prod.fst hf)
      rfl

/-! ## Products and quotients -/

/-- What a product or a quotient of `q` comes to if it keeps to the table: base units that go
together give the value `x` in the dimension of the table, and any other a fault and no change. -/
def FollowsTable (s : Session) (n : String) (q : Quantity) (combine : Int → Int → Int)
    (d e : Dimension) (x : Binary64) (outcome : Except Fault Answer × Session) : Prop :=
  if d.unit.GoesWith e.unit then
    outcome = (.ok .changed, s.put n (q.measured x (d.joined combine e).reduced))
  else ∃ f, outcome = (.error f, s) ∧ f.kind = .incompatibleUnits

theorem followsTable_of_scale {f : Quantity.Factors} {combine : Int → Int → Int}
    (hf : ∀ i j, f.powers (.ofInt i) (.ofInt j) = .ok (.ofInt (combine i j)))
    (hq : q.HasDimension d) (hr : r.HasDimension e) (hd : d.IsLegal) (he : e.IsLegal)
    {change : Change} (h : s.changed n change = q.scale f (.quantity r)) :
    FollowsTable s n q combine d e (f.combine q.value r.value)
      (s.step registry (.change n change)) := by
  unfold FollowsTable
  by_cases hgoes : d.unit.GoesWith e.unit
  · obtain ⟨g, hg⟩ := Dimension.goesWith_iff.1 hgoes
    have hscale := hq.scale_of_joins hf hr hd he hg
    rw [hg.eq_joined hd he] at hscale
    rw [if_pos hgoes, step_change_of_ok (h.trans hscale)]
  · obtain ⟨fault, hfault, hkind⟩ := hq.scale_of_not_goesWith hf hr hgoes
    rw [if_neg hgoes]
    exact ⟨fault, step_change_of_error (h.trans hfault), hkind⟩

/-- Every product and every quotient keeps to the table. The values are multiplied and divided as
floats are, also by a zero. -/
theorem table_of_run {requests : List Request} (ho : ∀ r ∈ requests, ¬ r.step.Overwrites) :
    ∀ o ∈ empty.trace requests, ∀ n m q r, o.2.get? n = some q → o.2.get? m = some r →
      (∃ d e, q.HasDimension d ∧ r.HasDimension e ∧ ∀ registry c,
        let outcome := o.2.step registry (.change n (c (.named m)))
        (IsForm .multiply c → FollowsTable o.2 n q (· + ·) d e (q.value * r.value) outcome) ∧
        (IsForm .divide c → FollowsTable o.2 n q (· - ·) d e (q.value / r.value) outcome)) ∧
      (r.value.isZero = true → q.value / r.value =
        if q.value.isZero || q.value.isNaN then .nan
        else .infinite (q.value.isNegative != r.value.isNegative)) := by
  intro o hmem n m q r hq hr
  obtain ⟨d, hqd, hd⟩ := exists_dimension_of_run ho hmem hq
  obtain ⟨e, hre, he⟩ := exists_dimension_of_run ho hmem hr
  refine ⟨⟨d, e, hqd, hre, fun registry c => ⟨fun hc => ?_, fun hc => ?_⟩⟩,
    Binary64.div_of_isZero q.value⟩
  · exact followsTable_of_scale (f := .product) (fun _ _ => rfl) hqd hre hd he
      (changed_named hc hq hr)
  · exact followsTable_of_scale (f := .quotient) (fun _ _ => rfl) hqd hre hd he
      (changed_named hc hq hr)

/-- A number, a length and two angles, whose quotient is no angle. -/
def dividing : List Request :=
  [.make (.ofFloat .number (.int 0) (.ofInt 2) none) "n",
    .make (.ofFloat .length (.int 0) (.ofInt 1) none) "l",
    .make (.ofFloat .angle (.int 0) (.ofRatio false Binary64.one 2) none) "b",
    .make (.ofFloat .angle (.int 0) (.ofInt 300) none) "a"].map fun action => ⟨.ok .empty, action⟩

theorem table_of_run_dividing :
    (∀ r ∈ dividing, ¬ r.step.Overwrites) ∧
      ∃ o ∈ empty.trace dividing, ∃ a b n, o.2.get? "a" = some a ∧ o.2.get? "b" = some b ∧
        o.2.get? "n" = some n ∧
        let outcome left verb right :=
          o.2.step (.ok .empty) (.change left (.apply verb (.named right)))
        outcome "a" .divide "b"
          = (.ok .changed, o.2.put "a" (a.measured (a.value / b.value) ⟨.number, 0⟩)) ∧
        (a.measured (a.value / b.value) ⟨.number, 0⟩).value = .ofInt 600 ∧
        outcome "n" .multiply "a"
          = (.ok .changed, o.2.put "n" (n.measured (n.value * a.value) ⟨.degrees, 1⟩)) ∧
        (n.measured (n.value * a.value) ⟨.degrees, 1⟩).value = .ofInt 240 ∧
        ∃ f, outcome "a" .divide "l" = (.error f, o.2) ∧ f.kind = .incompatibleUnits := by
  have ho : ∀ r ∈ dividing, ¬ r.step.Overwrites := by
    simp [dividing, Recipe.ofFloat, Step.Overwrites]
  have hmem : _ ∈ empty.trace dividing := List.mem_of_getLast? rfl
  refine ⟨ho, _, hmem, _, _, _, rfl, rfl, rfl, ?_, by decide +kernel, ?_, by decide +kernel, ?_⟩
  · obtain ⟨⟨d, e, hd, he, htable⟩, -⟩ := table_of_run ho _ hmem "a" "b" _ _ rfl rfl
    obtain rfl : ⟨.degrees, 1⟩ = d := HasDimension.unique ⟨rfl, rfl⟩ hd
    obtain rfl : ⟨.degrees, 1⟩ = e := HasDimension.unique ⟨rfl, rfl⟩ he
    exact (htable (.ok .empty) _).2 (.inl rfl)
  · obtain ⟨⟨d, e, hd, he, htable⟩, -⟩ := table_of_run ho _ hmem "n" "a" _ _ rfl rfl
    obtain rfl : ⟨.number, 0⟩ = d := HasDimension.unique ⟨rfl, rfl⟩ hd
    obtain rfl : ⟨.degrees, 1⟩ = e := HasDimension.unique ⟨rfl, rfl⟩ he
    exact (htable (.ok .empty) _).1 (.inl rfl)
  · obtain ⟨⟨d, e, hd, he, htable⟩, -⟩ := table_of_run ho _ hmem "a" "l" _ _ rfl rfl
    obtain rfl : ⟨.degrees, 1⟩ = d := HasDimension.unique ⟨rfl, rfl⟩ hd
    obtain rfl : ⟨.millipoints, 1⟩ = e := HasDimension.unique ⟨rfl, rfl⟩ he
    exact (htable (.ok .empty) _).2 (.inl rfl)

/-! ## Floats in place of numbers -/

theorem put_inj (h : s.put n q = s.put n r) : q = r := by
  have hget : (s.put n q).get? n = (s.put n r).get? n := by rw [h]
  rw [get?_put_self, get?_put_self] at hget
  exact Option.some.inj hget

theorem scale_float_iff {f : Quantity.Factors} {combine : Int → Int → Int}
    (hf : ∀ i j, f.powers (.ofInt i) (.ofInt j) = .ok (.ofInt (combine i j)))
    (hq : q.HasDimension d) (hd : d.IsLegal) (hr : r.HasDimension ⟨.number, 0⟩)
    {byFloat byNumber : Change}
    (hfloat : s.changed n byFloat = q.scale f (.datum (.float r.value)))
    (hnumber : s.changed n byNumber = q.scale f (.quantity r)) :
    let left := s.step registry (.change n byFloat)
    let right := s.step registry (.change n byNumber)
    left.1 = .ok .changed ∧ right.1 = .ok .changed ∧
      (left = right ↔ d.unit.isNumeric = true ∨ d.power ≠ 0) := by
  have hjoins : Dimension.Joins combine d ⟨.number, 0⟩ d := .numberRight rfl
  have hlegal : (⟨.number, 0⟩ : Dimension).IsLegal := fun _ => rfl
  intro left right
  have hleft : left = _ := step_change_of_ok (hfloat.trans (hq.scale_float f r.value))
  have hright : right = _ :=
    step_change_of_ok (hnumber.trans (hq.scale_of_joins hf hr hd hlegal hjoins))
  refine ⟨congrArg Prod.fst hleft, congrArg Prod.fst hright, ?_⟩
  -- A float leaves the dimension as it is; a number takes out a power of zero.
  rw [← Dimension.reduced_eq_self_iff, hleft, hright]
  constructor
  · intro h
    exact (Quantity.measured_inj (put_inj (congrArg Prod.snd h))).symm
  · intro h
    rw [h]

theorem step_make_number (s : Session) (i : Int) (x : Binary64) (m : String) :
    ∃ r, s.step registry (.make (.ofFloat .number (.int i) x none) m) = (.ok .made, s.put m r) ∧
      r.value = x ∧ r.HasDimension ⟨.number, 0⟩ := by
  refine ⟨.ofParts (.int i) x .number 0 .none, ?_, rfl, rfl, rfl⟩
  rw [step_make]
  rfl

/-- A float does what the number of its value does, of which there is one for every float: always
in a remainder, and in a product or a quotient exactly if there is no dimension or the power is not
zero. -/
theorem float_as_number_of_run {requests : List Request}
    (ho : ∀ r ∈ requests, ¬ r.step.Overwrites) :
    ∀ o ∈ empty.trace requests, ∀ n q, o.2.get? n = some q → ∃ d, q.HasDimension d ∧
      (∀ m r, o.2.get? m = some r → r.HasDimension ⟨.number, 0⟩ → ∀ registry c,
        let byFloat := o.2.step registry (.change n (c (.datum (.float r.value))))
        let byNumber := o.2.step registry (.change n (c (.named m)))
        (IsForm .multiply c ∨ IsForm .divide c →
          byFloat.1 = .ok .changed ∧ byNumber.1 = .ok .changed ∧
            (byFloat = byNumber ↔ d.unit.isNumeric = true ∨ d.power ≠ 0)) ∧
        (IsForm .mod c →
          (∃ q', byFloat = (.ok .changed, o.2.put n q') ∧
            byNumber = (.ok .changed, o.2.put n q')) ∨
          ∃ f g, byFloat = (.error f, o.2) ∧ byNumber = (.error g, o.2) ∧
            f.kind = .incompatibleOperands ∧ g.kind = .incompatibleOperands)) ∧
      ∀ registry i x m, ∃ r,
        o.2.step registry (.make (.ofFloat .number (.int i) x none) m) = (.ok .made, o.2.put m r) ∧
          r.value = x ∧ r.HasDimension ⟨.number, 0⟩ := by
  intro o hmem n q hq
  obtain ⟨d, hqd, hd⟩ := exists_dimension_of_run ho hmem hq
  refine ⟨d, hqd, fun m r hr hnumber registry c => ⟨?_, fun hc => ?_⟩,
    fun registry i x m => step_make_number o.2 i x m⟩
  · rintro (hc | hc)
    · exact scale_float_iff (f := .product) (fun _ _ => rfl) hqd hd hnumber
        (changed_float hc hq rfl) (changed_named hc hq hr)
    · exact scale_float_iff (f := .quotient) (fun _ _ => rfl) hqd hd hnumber
        (changed_float hc hq rfl) (changed_named hc hq hr)
  · have hfloat := changed_float (x := r.value) hc hq rfl
    have hnamed := changed_named hc hq hr
    rcases hqd.mod_float hnumber with ⟨q', hx, hy⟩ | ⟨f, g, hx, hy, hkinds⟩
    · exact .inl ⟨q', step_change_of_ok (hfloat.trans hx), step_change_of_ok (hnamed.trans hy)⟩
    · exact .inr ⟨f, g, step_change_of_error (hfloat.trans hx),
        step_change_of_error (hnamed.trans hy), hkinds⟩

/-- A number, a length, and a length of power zero. -/
def halving : List Request :=
  [.make (.ofFloat .number (.int 0) (.ofInt 2) none) "x",
    .make (.ofFloat .length (.int 0) (.ofInt 5) none) "l",
    .make (.full (.datum (.int 0)) (.datum (.float (.ofInt 5)))
      (.datum (.member (.base .millipoints))) (.datum (.int 0)) (.datum .none)) "z"].map
    fun action => ⟨.ok .empty, action⟩

theorem float_as_number_of_run_halving :
    (∀ r ∈ halving, ¬ r.step.Overwrites) ∧ ∃ o ∈ empty.trace halving, ∃ x,
      o.2.get? "x" = some x ∧ x.value = .ofInt 2 ∧
      let byFloat n verb :=
        o.2.step (.ok .empty) (.change n (.apply verb (.datum (.float x.value))))
      let byNumber n verb := o.2.step (.ok .empty) (.change n (.apply verb (.named "x")))
      (byFloat "l" .divide).1 = .ok .changed ∧ byFloat "l" .divide = byNumber "l" .divide ∧
        byFloat "z" .divide ≠ byNumber "z" .divide ∧
        (∃ q, byFloat "x" .mod = (.ok .changed, o.2.put "x" q) ∧
          byNumber "x" .mod = (.ok .changed, o.2.put "x" q)) ∧
        ∃ f g, byFloat "z" .mod = (.error f, o.2) ∧ byNumber "z" .mod = (.error g, o.2) ∧
          f.kind = .incompatibleOperands ∧ g.kind = .incompatibleOperands := by
  have ho : ∀ r ∈ halving, ¬ r.step.Overwrites := by simp [halving, Recipe.ofFloat, Step.Overwrites]
  have hmem : _ ∈ empty.trace halving := List.mem_of_getLast? rfl
  refine ⟨ho, _, hmem, _, rfl, by decide +kernel, ?_⟩
  obtain ⟨d, hd, hlength, -⟩ := float_as_number_of_run ho _ hmem "l" _ rfl
  obtain ⟨e, he, hbare, -⟩ := float_as_number_of_run ho _ hmem "z" _ rfl
  obtain ⟨_, -, hself, -⟩ := float_as_number_of_run ho _ hmem "x" _ rfl
  obtain rfl : ⟨.millipoints, 1⟩ = d := HasDimension.unique ⟨rfl, rfl⟩ hd
  obtain rfl : ⟨.millipoints, 0⟩ = e := HasDimension.unique ⟨rfl, rfl⟩ he
  have hdivide := (hlength "x" _ rfl ⟨rfl, rfl⟩ (.ok .empty) _).1 (.inr (.inl rfl))
  have hbareDivide := (hbare "x" _ rfl ⟨rfl, rfl⟩ (.ok .empty) _).1 (.inr (.inl rfl))
  refine ⟨hdivide.1, hdivide.2.2.2 (by decide), ?_, ?_, ?_⟩
  · exact fun h => absurd (hbareDivide.2.2.1 h) (by decide)
  · rcases (hself "x" _ rfl ⟨rfl, rfl⟩ (.ok .empty) _).2 (.inl rfl) with h | ⟨f, _, h, -⟩
    · exact h
    · cases congrArg Prod.fst h
  · rcases (hbare "x" _ rfl ⟨rfl, rfl⟩ (.ok .empty) _).2 (.inl rfl) with ⟨q, h, -⟩ | h
    · cases congrArg Prod.fst h
    · exact h

end Session

end Measures
