import Measures.Session.Change

/-!
# An operation in place is its next state

Every operation comes to one of two ends: it fails and has written nothing, or its receiver holds
the next state that the algebra of quantities gives and all else is as it was.
-/

namespace Measures.Session

variable {s : Session} {self : String} {q : Quantity}

/-- What an operation with a next state comes to. -/
def settled (s : Session) (self : String) : Except Fault Quantity → Except Fault Unit × Session
  | .ok q => (.ok (), s.put self q)
  | .error f => (.error f, s)

/-! ## The commit -/

theorem perform_commit (h : s.get self = .ok q) (value : Binary64) (unit : UnitSlot)
    (power : Power) :
    (commit self value unit power).perform s
      = s.settled self (.ok (q.commit value unit power)) := by
  have hq := get_eq_ok_iff.1 h
  simp [commit, Action.perform_bind, update_of_get? hq, update_of_get?, settled, Quantity.commit]

/-- Once an operation gets to its writes it does not fail, whatever the store holds. -/
theorem commit_succeeds (self : String) (value : Binary64) (unit : UnitSlot) (power : Power)
    (s : Session) : ((commit self value unit power).perform s).1 = .ok () := by
  simp [commit, Action.perform_bind]

/-! ## The operations -/

theorem perform_addWith (verb : Verb) (combine : Binary64 → Binary64 → Binary64) (a : Argument) :
    (addWith verb combine self a).perform s = s.settled self (do
      let q ← s.get self
      q.addWith verb combine (← s.operand a)) := by
  unfold addWith Quantity.addWith
  refine Action.perform_reads_bind (fun _ => rfl) (perform_read self s) fun q hq => ?_
  refine Action.perform_reads_bind (fun _ => rfl) (perform_readOperand a s) fun o _ => ?_
  refine Action.perform_reads_bind (fun _ => rfl) (Action.perform_liftM _ s) fun r _ => ?_
  refine Action.perform_reads_bind (fun _ => rfl) (Action.perform_liftM _ s) fun _ _ => ?_
  exact perform_commit hq _ _ _

theorem perform_mod (a : Argument) :
    (mod self a).perform s = s.settled self (do
      let q ← s.get self
      q.mod (← s.operand a)) := by
  unfold mod Quantity.mod
  refine Action.perform_reads_bind (fun _ => rfl) (perform_read self s) fun q hq => ?_
  refine Action.perform_reads_bind (fun _ => rfl) (perform_readOperand a s) fun o _ => ?_
  refine Action.perform_reads_bind (fun _ => rfl) (Action.perform_liftM _ s) fun x _ => ?_
  exact perform_commit hq _ _ _

theorem perform_scale (f : Quantity.Factors) (a : Argument) :
    (scale f self a).perform s = s.settled self (do
      let q ← s.get self
      q.scale f (← s.operand a)) := by
  unfold scale Quantity.scale
  refine Action.perform_reads_bind (fun _ => rfl) (perform_read self s) fun q hq => ?_
  refine Action.perform_reads_bind (fun _ => rfl) (perform_readOperand a s) fun o _ => ?_
  cases o with
  | quantity r =>
    refine Action.perform_reads_bind (fun _ => rfl) (Action.perform_liftM _ s) fun d _ => ?_
    refine Action.perform_reads_bind (fun _ => rfl) (Action.perform_liftM _ s) fun unit _ => ?_
    exact perform_commit hq _ _ _
  | datum d =>
    refine Action.perform_reads_bind (fun _ => rfl) (Action.perform_liftM _ s) fun x _ => ?_
    exact perform_commit hq _ _ _
  | list items =>
    refine Action.perform_reads_bind (fun _ => rfl) (Action.perform_liftM _ s) fun x _ => ?_
    exact perform_commit hq _ _ _

theorem perform_negate :
    (negate self).perform s = s.settled self ((s.get self).map (·.negate)) := by
  unfold negate
  rw [show (s.get self).map (·.negate) = s.get self >>= fun q => .ok q.negate by
    cases s.get self <;> rfl]
  exact Action.perform_reads_bind (fun _ => rfl) (perform_read self s) fun q hq =>
    perform_commit hq _ _ _

theorem perform_apply (verb : Verb) (a : Argument) :
    (apply verb self a).perform s = s.settled self (do
      let q ← s.get self
      q.apply verb (← s.operand a)) := by
  cases verb with
  | add => exact perform_addWith .add (· + ·) a
  | subtract => exact perform_addWith .subtract (· - ·) a
  | mod => exact perform_mod a
  | multiply => exact perform_scale .product a
  | divide => exact perform_scale .quotient a

theorem perform_applyOperator (verb : Verb) (a : Argument) :
    (applyOperator verb self a).perform s = s.settled self (do
      let q ← s.get self
      q.applyOperator verb (← s.operand a)) := by
  unfold applyOperator Quantity.applyOperator
  refine Action.perform_reads_bind (fun _ => rfl) (perform_read self s) fun q hq => ?_
  refine Action.perform_reads_bind (fun _ => rfl) (perform_readOperand a s) fun o ho => ?_
  split
  · rfl
  · rw [perform_apply, hq, ho]
    rfl

/-! ## Every change -/

/-- The next state of a receiver. -/
def changed (s : Session) (self : String) : Change → Except Fault Quantity
  | .apply verb a => do
    let q ← s.get self
    q.apply verb (← s.operand a)
  | .operator verb a => do
    let q ← s.get self
    q.applyOperator verb (← s.operand a)
  | .negate => (s.get self).map (·.negate)

/-- A change either fails and writes nothing, or puts the next state of its receiver in its
place. -/
theorem perform_change (c : Change) :
    (change self c).perform s = s.settled self (s.changed self c) := by
  cases c with
  | apply verb a => exact perform_apply verb a
  | operator verb a => exact perform_applyOperator verb a
  | negate => exact perform_negate

end Measures.Session
