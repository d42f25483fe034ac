import Measures.Proofs.Quantity.Kind
import Measures.Proofs.Session.Frame
import Measures.Proofs.Session.Sound

/-!
# Where a quantity comes from

The literal unit that a quantity was made with is named for good: neither operations nor copies lose
it, and the name is looked up under the base unit at the time of making.
-/

namespace Measures

/-! ## The name of the literal unit -/

/-- The text of the unit that a quantity of a kind is given in. -/
def Quantity.Kind.unitText (kind : Kind) (given : Option PhysicalUnit) : String :=
  match kind with
  | .number => ""
  | .percentage => "%"
  | .ems => "em"
  | kind => ((given.or kind.defaultUnit?).map (·.text)).getD ""

namespace Quantity

variable {q r : Quantity} {property : Datum} {value : Operand} {kind : Kind}
  {given : Option PhysicalUnit}

theorem literalName_base (u : PhysicalUnit) :
    literalName u.base (.member (.physical u)) = u.text := by
  rcases u with u | u | u | u <;> cases u <;> decide +kernel

theorem literalUnitName_of_origin (h : r.origin = q.origin) :
    r.literalUnitName = q.literalUnitName := by
  obtain ⟨-, hunit, hliteral⟩ := Origin.mk.inj h
  unfold literalUnitName Writing.literalUnitName
  rw [hunit, hliteral]

theorem literalUnitName_ofPhysical {u : PhysicalUnit} {base : BaseUnit} (hu : u.base = base)
    (h : ofPhysical property value (.datum (.member (.physical u))) base = .ok q) :
    q.literalUnitName = .ok u.text := by
  obtain ⟨x, v, -, hv, rfl⟩ := ofPhysical_eq_ok_iff.1 h
  obtain rfl : u = v := Except.ok.inj hv
  rw [← hu]
  rw [literalUnitName_unit rfl]
  exact congrArg Except.ok (literalName_base u)

theorem literalUnitName_ofKind (hgiven : ∀ u, given = some u → u.base = kind.base)
    (h : ofKind kind property value (given.map fun u => .datum (.member (.physical u))) = .ok q) :
    q.literalUnitName = .ok (kind.unitText given) := by
  cases kind with
  | number | percentage | ems =>
    obtain ⟨x, -, h⟩ := bind_eq_ok.1 h
    obtain rfl := Except.ok.inj h
    rfl
  | length | frequency | time | angle =>
    cases given with
    | none => exact literalUnitName_ofPhysical rfl h
    | some u => exact literalUnitName_ofPhysical (hgiven u rfl) h

end Quantity

/-! ## Quantities that stem from one -/

/-- The variable that a step gives a new quantity. -/
def Step.binds? : Step → Option String
  | .make _ target | .copy _ target | .opposite _ target => some target
  | _ => none

namespace Session

open Quantity (origin)

variable {registry : Except Fault Registry} {s : Session} {name n : String} {q : Quantity}
  {requests : List Request}

/-- After requests a variable holds the quantity that `name` held before them, or one that was
copied from it on the way, whatever operations there were. -/
inductive Stems (s : Session) (name : String) : List Request → String → Prop
  | self : Stems s name [] name
  | stays {requests : List Request} {n : String} (h : Stems s name requests n) (r : Request)
    (hr : r.step.binds? = some n →
      ∃ f, ((s.after requests).step r.registry r.step).1 = .error f) :
    Stems s name (requests ++ [r]) n
  | copied {requests : List Request} {n : String} (h : Stems s name requests n)
    (registry : Except Fault Registry) (target : String) :
    Stems s name (requests ++ [⟨registry, .copy n target⟩]) target
  | opposite {requests : List Request} {n : String} (h : Stems s name requests n)
    (registry : Except Fault Registry) (target : String) :
    Stems s name (requests ++ [⟨registry, .opposite n target⟩]) target

theorem ending_of_error {e : Except Fault (Answer × Session)} {f : Fault}
    (h : (s.ending e).1 = .error f) : (s.ending e).2 = s := by
  cases e with
  | error _ => rfl
  | ok _ => cases h

theorem step_of_error {action : Step} {f : Fault} (hbinds : action.binds? = some n)
    (h : (s.step registry action).1 = .error f) : (s.step registry action).2 = s := by
  cases action with
  | make recipe target =>
    rw [step_make] at h ⊢
    exact ending_of_error h
  | copy source target =>
    rw [step_copy] at h ⊢
    exact ending_of_error h
  | opposite source target =>
    rw [step_opposite] at h ⊢
    exact ending_of_error h
  | _ => cases hbinds

theorem origin_step {action : Step} (ho : ¬ action.Overwrites)
    (hfails : action.binds? = some n → ∃ f, (s.step registry action).1 = .error f) :
    ((s.step registry action).2.get? n).map origin = (s.get? n).map origin := by
  -- Of the steps that write, only a change in place does not bind a new quantity.
  by_cases hwrites : action.writes? = some n
  · cases action with
    | make recipe target | copy source target | opposite source target =>
      obtain ⟨f, hf⟩ := hfails hwrites
      rw [step_of_error rfl hf]
    | change subject c =>
      obtain rfl := Option.some.inj hwrites
      exact origin_change s subject c
    | overwrite subject field content => exact absurd trivial ho
    | ask | compare | describe | validate => cases hwrites
  · rw [get?_step s hwrites]

/-- Whatever stems from a quantity has kept all of its making. -/
theorem Stems.origin (h : Stems s name requests n) (hq : s.get? name = some q)
    (ho : ∀ r ∈ requests, ¬ r.step.Overwrites) :
    ∃ r, (s.after requests).get? n = some r ∧ r.origin = q.origin := by
  induction h with
  | self => exact ⟨q, hq, rfl⟩
  | @stays requests n _ r hr ih =>
    obtain ⟨hbefore, hlast⟩ := List.forall_mem_append.1 ho
    obtain ⟨t, ht, horigin⟩ := ih hbefore
    have hstep := origin_step (hlast r List.mem_cons_self) hr
    rw [← after_concat, ht] at hstep
    obtain ⟨t', ht', horigin'⟩ := Option.map_eq_some_iff.1 hstep
    exact ⟨t', ht', horigin'.trans horigin⟩
  | copied _ registry target ih =>
    obtain ⟨t, ht, horigin⟩ := ih (List.forall_mem_append.1 ho).1
    refine ⟨t, ?_, horigin⟩
    rw [after_concat, step_copy_of_get? ht, get?_put_self]
  | opposite _ registry target ih =>
    obtain ⟨t, ht, horigin⟩ := ih (List.forall_mem_append.1 ho).1
    refine ⟨t.negate, ?_, horigin⟩
    rw [after_concat, step_opposite_of_get? ht, get?_put_self]

/-- A quantity of a kind, given in a unit of that kind or in none. -/
def ofKindStep (kind : Quantity.Kind) (property value : Argument) (given : Option PhysicalUnit)
    (name : String) : Step :=
  .make (.ofKind kind property value (given.map fun u => .datum (.member (.physical u)))) name

theorem literalUnitName_of_made {kind : Quantity.Kind} {property value : Argument}
    {given : Option PhysicalUnit} {answer : Answer}
    (hgiven : ∀ u, given = some u → u.base = kind.base)
    (h : (s.step registry (ofKindStep kind property value given name)).1 = .ok answer) :
    ∃ q, (s.step registry (ofKindStep kind property value given name)).2.get? name = some q ∧
      q.literalUnitName = .ok (kind.unitText given) := by
  rw [ofKindStep, step_make] at h ⊢
  cases hq : s.make registry (.ofKind kind property value
      (given.map fun u => .datum (.member (.physical u)))) with
  | error f =>
    rw [hq] at h
    cases h
  | ok q =>
    refine ⟨q, get?_put_self s name q, ?_⟩
    obtain ⟨_, _, unit, hunit, hmake⟩ := exists_of_make_ofKind hq
    obtain rfl : (given.map fun u => .datum (.member (.physical u))) = unit := by
      cases given <;> exact Except.ok.inj hunit
    exact Quantity.literalUnitName_ofKind hgiven hmake

/-- Operations change nothing but the value, the base unit and the power of their receivers, and
take a copy of an operand for the operand; copies keep what their source keeps of its making, and
no run reaches one through the other. So every quantity that was given in a unit of its kind, and
whatever was copied from it, names that unit after any run. -/
theorem frame_and_provenance (s : Session) :
    (∀ registry subject c, let next := (s.step registry (.change subject c)).2
      (next.get? subject).map origin = (s.get? subject).map origin ∧
        ∀ n, n ≠ subject → next.get? n = s.get? n) ∧
    (∀ registry c n q subject copied, IsBinary c → s.get? n = some q → subject ≠ copied →
      let t := (s.step registry (.copy n copied)).2
      let o := s.step registry (.change subject (c (.named n)))
      let o' := t.step registry (.change subject (c (.named copied)))
      o'.1 = o.1 ∧ (∀ m, m ≠ copied → o'.2.get? m = o.2.get? m) ∧ o'.2.get? copied = some q) ∧
    (∀ registry action source target q,
      action = .copy source target ∨ action = .opposite source target → s.get? source = some q →
        let next := (s.step registry action).2
        (next.get? target).map origin = some q.origin ∧
          (action = .copy source target → next.get? target = some q) ∧
          ∀ n, n ≠ target → next.get? n = s.get? n) ∧
    (∀ requests n, (∀ r ∈ requests, r.step.writes? ≠ some n) →
      (s.after requests).get? n = s.get? n) ∧
    ∀ registry kind property value given name answer,
      (∀ u, given = some u → u.base = kind.base) →
      let made := s.step registry (ofKindStep kind property value given name)
      made.1 = .ok answer → ∀ requests, (∀ r ∈ requests, ¬ r.step.Overwrites) →
        ∀ n, Stems made.2 name requests n → ∀ registry',
          ((made.2.after requests).step registry' (.ask n .literalUnitName)).1
            = .ok (.datum (.text (kind.unitText given))) := by
  refine ⟨fun registry subject c => ⟨origin_change s subject c, fun n hn => ?_⟩,
    fun registry c n q subject copied hc hq hne => change_of_copy hc hq hne,
    fun registry action source target q haction hq => ?_,
    fun requests n h => get?_after h s, ?_⟩
  · exact get?_step s fun h => hn (Option.some.inj h).symm
  · rcases haction with rfl | rfl
    · rw [step_copy_of_get? hq]
      exact ⟨by rw [get?_put_self, Option.map_some], fun _ => get?_put_self s target q,
        fun n hn => get?_put_of_ne hn s q⟩
    · rw [step_opposite_of_get? hq]
      exact ⟨by rw [get?_put_self, Option.map_some, Quantity.origin_negate], nofun,
        fun n hn => get?_put_of_ne hn s q.negate⟩
  · intro registry kind property value given name answer hgiven made hmade requests ho n hn later
    obtain ⟨q, hq, hname⟩ := literalUnitName_of_made hgiven hmade
    obtain ⟨r, hr, horigin⟩ := hn.origin hq ho
    rw [step_ask, get_eq_ok_iff.2 hr, ok_bind, Query.answer,
      Quantity.literalUnitName_of_origin horigin, hname]
    rfl

/-- A copy of a percentage becomes a length. -/
def lengthening : List Request :=
  [.copy "a" "b", ofKindStep .length (.datum (.int 5)) (.datum (.int 10)) none "c",
    .change "b" (.apply .multiply (.named "c"))].map fun action => ⟨.ok .empty, action⟩

theorem frame_and_provenance_lengthening :
    let made := empty.step (.ok .empty)
      (ofKindStep .percentage (.datum (.int 5)) (.datum (.int 50)) none "a")
    let s := made.2.after lengthening
    (s.get? "b").map (·.unit.holds .millipoints) = some true ∧
      (s.step (.ok .empty) (.ask "b" .literalUnitName)).1 = .ok (.datum (.text "%")) ∧
      let halved := s.step (.ok .empty) (.change "b" (.operator .divide (.named "b")))
      let t := (s.step (.ok .empty) (.copy "b" "d")).2
      halved.1.isOk = true ∧
        (t.step (.ok .empty) (.change "b" (.operator .divide (.named "d")))).2.get? "b"
          = halved.2.get? "b" := by
  intro made s
  have hself : Stems made.2 "a" [] "a" := .self
  have hstems : Stems made.2 "a" lengthening "b" := by
    have hmade := (hself.copied (.ok .empty) "b").stays ⟨.ok .empty, ofKindStep .length
      (.datum (.int 5)) (.datum (.int 10)) none "c"⟩ (by simp [ofKindStep, Step.binds?])
    exact hmade.stays ⟨.ok .empty, .change "b" (.apply .multiply (.named "c"))⟩
      (by simp [Step.binds?])
  have ho : ∀ r ∈ lengthening, ¬ r.step.Overwrites := by
    simp [lengthening, ofKindStep, Step.Overwrites]
  have hunit : (s.get? "b").map (·.unit.holds .millipoints) = some true := by decide +kernel
  obtain ⟨q, hq, -⟩ := Option.map_eq_some_iff.1 hunit
  have hmade : made.1.isOk = true := by decide +kernel
  obtain ⟨answer, hanswer⟩ := exists_of_isOk hmade
  obtain ⟨-, -, -, -, hnames⟩ := frame_and_provenance empty
  obtain ⟨-, hcopies, -⟩ := frame_and_provenance s
  obtain ⟨-, hsame, -⟩ := hcopies (.ok .empty) (.operator .divide) "b" q "b" "d"
    ⟨.divide, .inr rfl⟩ hq (by decide)
  refine ⟨hunit, ?_, by decide +kernel, hsame "b" (by decide)⟩
  exact hnames (.ok .empty) .percentage (.datum (.int 5)) (.datum (.int 50)) none "a" answer
    (by rintro u ⟨⟩) hanswer lengthening ho "b" hstems (.ok .empty)

end Session

end Measures
