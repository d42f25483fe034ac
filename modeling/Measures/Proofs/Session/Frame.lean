import Measures.Proofs.Failure
import Measures.Proofs.Session.Step

/-!
# What a step leaves as it is

A step writes to one variable at most. An operation writes only the value, the base unit and the
power of its receiver, and it takes a copy of its operand for the operand itself.
-/

namespace Measures

/-! ## What a quantity keeps of its making -/

namespace Quantity

variable {q r : Quantity} {o : Operand}

structure Origin where
  property : Datum
  unit : UnitSlot
  literal : Datum

/-- All that is not rewritten when a quantity changes. -/
def origin (q : Quantity) : Origin := ⟨q.property, q.madeUnit, q.literal⟩

theorem origin_commit (q : Quantity) (x : Binary64) (u : UnitSlot) (p : Power) :
    (q.commit x u p).origin = q.origin := rfl

theorem origin_negate (q : Quantity) : q.negate.origin = q.origin := rfl

theorem origin_addWith {verb : Verb} {combine : Binary64 → Binary64 → Binary64}
    (h : q.addWith verb combine o = .ok r) : r.origin = q.origin := by
  unfold addWith at h
  obtain ⟨_, -, h⟩ := bind_eq_ok.1 h
  obtain ⟨_, -, h⟩ := bind_eq_ok.1 h
  rw [← Except.ok.inj h, origin_commit]

theorem origin_mod (h : q.mod o = .ok r) : r.origin = q.origin := by
  unfold mod at h
  obtain ⟨_, -, h⟩ := bind_eq_ok.1 h
  rw [← Except.ok.inj h, origin_commit]

theorem origin_scale {f : Factors} (h : q.scale f o = .ok r) : r.origin = q.origin := by
  unfold scale at h
  cases o with
  | quantity _ =>
    obtain ⟨_, -, h⟩ := bind_eq_ok.1 h
    obtain ⟨_, -, h⟩ := bind_eq_ok.1 h
    rw [← Except.ok.inj h, origin_commit]
  | datum _ | list _ =>
    obtain ⟨_, -, h⟩ := bind_eq_ok.1 h
    rw [← Except.ok.inj h, origin_commit]

theorem origin_apply {verb : Verb} (h : q.apply verb o = .ok r) : r.origin = q.origin := by
  cases verb with
  | add | subtract => exact origin_addWith h
  | mod => exact origin_mod h
  | multiply | divide => exact origin_scale h

theorem origin_applyOperator {verb : Verb} (h : q.applyOperator verb o = .ok r) :
    r.origin = q.origin := by
  unfold applyOperator at h
  split at h
  · cases h
  · exact origin_apply h

end Quantity

open Quantity (origin)

/-! ## Variables that are not written -/

/-- The variable that a step may write to. -/
def Step.writes? : Step → Option String
  | .make _ target | .copy _ target | .opposite _ target => some target
  | .change subject _ | .overwrite subject _ _ => some subject
  | .ask .. | .compare .. | .describe _ | .validate _ => none

namespace Session

variable {registry : Except Fault Registry} {s t : Session} {n : String} {q : Quantity}

theorem get?_ending {e : Except Fault (Answer × Session)}
    (h : ∀ answer next, e = .ok (answer, next) → next.get? n = s.get? n) :
    (s.ending e).2.get? n = s.get? n := by
  cases e with
  | error f => rfl
  | ok result => exact h _ _ rfl

theorem get?_put_of_ne {target : String} (h : n ≠ target) (s : Session) (q : Quantity) :
    (s.put target q).get? n = s.get? n := by
  rw [get?_put, if_neg h]

theorem get?_ending_put {e : Except Fault Quantity} {next : Quantity → Quantity}
    {answer : Quantity → Answer} {target : String} (h : n ≠ target) :
    (s.ending (e >>= fun q => .ok (answer q, s.put target (next q)))).2.get? n = s.get? n := by
  refine get?_ending fun _ _ hnext => ?_
  obtain ⟨q, -, ⟨⟩⟩ := bind_eq_ok.1 hnext
  exact get?_put_of_ne h s (next q)

theorem get?_step (s : Session) {action : Step} (h : action.writes? ≠ some n) :
    (s.step registry action).2.get? n = s.get? n := by
  have hne {target : String} (ht : action.writes? = some target) : n ≠ target :=
    fun heq => h (heq ▸ ht)
  cases action with
  | make recipe target =>
    rw [step_make]
    exact get?_ending_put (hne rfl)
  | copy source target =>
    rw [step_copy]
    exact get?_ending_put (hne rfl)
  | opposite source target =>
    rw [step_opposite]
    exact get?_ending_put (hne rfl)
  | change subject c =>
    rw [step_change]
    exact get?_ending_put (hne rfl)
  | overwrite subject field content =>
    rw [step_overwrite]
    refine get?_ending fun _ _ hnext => ?_
    obtain ⟨q, -, hnext⟩ := bind_eq_ok.1 hnext
    obtain ⟨o, -, hnext⟩ := bind_eq_ok.1 hnext
    obtain ⟨d, -, ⟨⟩⟩ := bind_eq_ok.1 hnext
    exact get?_put_of_ne (hne rfl) s _
  | ask subject query => rw [step_ask]
  | compare subject comparison a => rw [step_compare]
  | describe subject => rw [step_describe]
  | validate subject => rw [step_validate]

/-- The session after requests, whether they failed or not. -/
def after (s : Session) (requests : List Request) : Session :=
  Action.after (fun r => act r.registry r.step) s requests

theorem after_append (s : Session) (requests later : List Request) :
    s.after (requests ++ later) = (s.after requests).after later := Action.after_append _ _ _ _

theorem after_concat (s : Session) (requests : List Request) (r : Request) :
    s.after (requests ++ [r]) = ((s.after requests).step r.registry r.step).2 :=
  after_append s requests [r]

/-- No run reaches a quantity except through its own variable. -/
theorem get?_after {requests : List Request} (h : ∀ r ∈ requests, r.step.writes? ≠ some n)
    (s : Session) : (s.after requests).get? n = s.get? n := by
  refine Action.keep_after (P := fun t : Session => t.get? n = s.get? n) ?_ rfl
  intro r hr t ht
  exact (get?_step t (h r hr)).trans ht

/-! ## Receivers -/

theorem origin_changed {subject : String} {c : Change} (h : s.changed subject c = .ok q) :
    ∃ r, s.get? subject = some r ∧ q.origin = r.origin := by
  cases c with
  | apply verb a =>
    obtain ⟨r, hr, h⟩ := bind_eq_ok.1 h
    obtain ⟨o, -, h⟩ := bind_eq_ok.1 h
    exact ⟨r, get_eq_ok_iff.1 hr, Quantity.origin_apply h⟩
  | operator verb a =>
    obtain ⟨r, hr, h⟩ := bind_eq_ok.1 h
    obtain ⟨o, -, h⟩ := bind_eq_ok.1 h
    exact ⟨r, get_eq_ok_iff.1 hr, Quantity.origin_applyOperator h⟩
  | negate =>
    obtain ⟨r, hr, rfl⟩ := map_eq_ok.1 h
    exact ⟨r, get_eq_ok_iff.1 hr, Quantity.origin_negate r⟩

/-- An operation changes nothing but the value, the base unit and the power of its receiver. -/
theorem origin_change (s : Session) (subject : String) (c : Change) :
    ((s.step registry (.change subject c)).2.get? subject).map origin
      = (s.get? subject).map origin := by
  rw [step_change]
  cases hq : s.changed subject c with
  | error f => rfl
  | ok q =>
    obtain ⟨r, hr, horigin⟩ := origin_changed hq
    rw [hr, Option.map_some, ← horigin]
    exact congrArg (Option.map origin) (get?_put_self s subject q)

/-! ## Copies -/

theorem step_copy_of_get? (h : s.get? n = some q) (target : String) :
    s.step registry (.copy n target) = (.ok (.copied q), s.put target q) := by
  rw [step_copy, get_eq_ok_iff.2 h]
  rfl

theorem step_opposite_of_get? (h : s.get? n = some q) (target : String) :
    s.step registry (.opposite n target)
      = (.ok (.copied q.negate), s.put target q.negate) := by
  rw [step_opposite, get_eq_ok_iff.2 h]
  rfl

/-- The forms of an operation with an operand. -/
def IsForm (verb : Verb) (c : Argument → Change) : Prop := c = .apply verb ∨ c = .operator verb

def IsBinary (c : Argument → Change) : Prop := ∃ verb, IsForm verb c

theorem changed_congr {c : Argument → Change} (hc : IsBinary c) {subject : String}
    {a b : Argument} (hself : t.get subject = s.get subject)
    (hoperand : t.operand b = s.operand a) : t.changed subject (c b) = s.changed subject (c a) := by
  obtain ⟨verb, rfl | rfl⟩ := hc
  · rw [changed, changed, hself, hoperand]
  · rw [changed, changed, hself, hoperand]

/-- An operation gives the same with a copy of its operand in place of the operand, also when the
operand is its receiver. -/
theorem change_of_copy {c : Argument → Change} (hc : IsBinary c) (hq : s.get? n = some q)
    {subject copied : String} (hne : subject ≠ copied) :
    let t := (s.step registry (.copy n copied)).2
    let o := s.step registry (.change subject (c (.named n)))
    let o' := t.step registry (.change subject (c (.named copied)))
    o'.1 = o.1 ∧ (∀ m, m ≠ copied → o'.2.get? m = o.2.get? m) ∧ o'.2.get? copied = some q := by
  intro t o o'
  have ht : t = s.put copied q := congrArg Prod.snd (step_copy_of_get? hq copied)
  have hself : t.get subject = s.get subject := by
    rw [ht, get, get, get?_put_of_ne hne]
  have hoperand : t.operand (.named copied) = s.operand (.named n) := by
    rw [ht, operand, operand, get_eq_ok_iff.2 hq, get_eq_ok_iff.2 (get?_put_self s copied q)]
  have hchanged := changed_congr hc hself hoperand
  have ho : o = _ := step_change subject (c (.named n))
  have ho' : o' = _ := step_change subject (c (.named copied))
  rw [hchanged] at ho'
  refine ⟨?_, ?_, ?_⟩
  · rw [ho, ho']
    cases s.changed subject (c (.named n)) <;> rfl
  · intro m hm
    rw [ho, ho', ht]
    cases s.changed subject (c (.named n)) with
    | error f => exact get?_put_of_ne hm s q
    | ok r =>
      change ((s.put copied q).put subject r).get? m = (s.put subject r).get? m
      rw [get?_put _ subject, get?_put s subject, get?_put_of_ne hm]
  · have hkept : o'.2.get? copied = t.get? copied :=
      get?_step t fun h => hne (Option.some.inj h)
    rw [hkept, ht, get?_put_self]

end Session

end Measures
