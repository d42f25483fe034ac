import Measures.Proofs.Session.Change
import Measures.Session

/-!
# What fails has changed nothing

An operation in place reads and checks as often as it needs to, and writes once it can no longer
fail. It does so for every content of the fields, those that were overwritten from outside included.
-/

namespace Measures

/-- An action that leaves every state as it is. -/
def Action.ReadOnly {σ α : Type} (m : Action σ α) : Prop := ∀ s, (m.perform s).2 = s

theorem Action.readOnly_liftM {σ α : Type} (e : Except Fault α) :
    (liftM e : Action σ α).ReadOnly := fun _ => rfl

namespace Session

variable {self : String} {m : Action Session Unit}

theorem readOnly_read (name : String) : (read name).ReadOnly := fun _ => rfl

theorem readOnly_readOperand (a : Argument) : (readOperand a).ReadOnly := fun _ => rfl

/-- An action whose parts only read, up to a commit at its very end. -/
inductive WritesLast (self : String) : Action Session Unit → Prop
  | commit (value : Binary64) (unit : UnitSlot) (power : Power) :
    WritesLast self (commit self value unit power)
  | refusal (f : Fault) : WritesLast self (throw f)
  | reading {α : Type} {m : Action Session α} {k : α → Action Session Unit}
    (hm : m.ReadOnly) (hk : ∀ a, WritesLast self (k a)) : WritesLast self (m >>= k)

/-! ## All operations write last -/

theorem writesLast_addWith (verb : Verb) (combine : Binary64 → Binary64 → Binary64)
    (a : Argument) : WritesLast self (addWith verb combine self a) := by
  unfold addWith
  refine .reading (readOnly_read self) fun q => ?_
  refine .reading (readOnly_readOperand a) fun o => ?_
  refine .reading (Action.readOnly_liftM _) fun r => ?_
  refine .reading (Action.readOnly_liftM _) fun _ => ?_
  exact .commit _ _ _

theorem writesLast_mod (a : Argument) : WritesLast self (mod self a) := by
  unfold mod
  refine .reading (readOnly_read self) fun q => ?_
  refine .reading (readOnly_readOperand a) fun o => ?_
  refine .reading (Action.readOnly_liftM _) fun divisor => ?_
  exact .commit _ _ _

theorem writesLast_scale (f : Quantity.Factors) (a : Argument) :
    WritesLast self (scale f self a) := by
  unfold scale
  refine .reading (readOnly_read self) fun q => ?_
  refine .reading (readOnly_readOperand a) fun o => ?_
  cases o with
  | quantity r =>
    refine .reading (Action.readOnly_liftM _) fun dimension => ?_
    refine .reading (Action.readOnly_liftM _) fun unit => ?_
    exact .commit _ _ _
  | datum d | list items =>
    refine .reading (Action.readOnly_liftM _) fun x => ?_
    exact .commit _ _ _

theorem writesLast_negate : WritesLast self (negate self) := by
  unfold negate
  refine .reading (readOnly_read self) fun q => ?_
  exact .commit _ _ _

theorem writesLast_apply (verb : Verb) (a : Argument) : WritesLast self (apply verb self a) := by
  cases verb with
  | add | subtract => exact writesLast_addWith _ _ a
  | mod => exact writesLast_mod a
  | multiply | divide => exact writesLast_scale _ a

theorem writesLast_applyOperator (verb : Verb) (a : Argument) :
    WritesLast self (applyOperator verb self a) := by
  unfold applyOperator
  refine .reading (readOnly_read self) fun q => ?_
  refine .reading (readOnly_readOperand a) fun o => ?_
  split
  · exact .refusal _
  · exact writesLast_apply verb a

theorem writesLast_change (c : Change) : WritesLast self (change self c) := by
  cases c with
  | apply verb a => exact writesLast_apply verb a
  | operator verb a => exact writesLast_applyOperator verb a
  | negate => exact writesLast_negate

/-! ## Failures -/

/-- What writes last fails before its first write. -/
theorem WritesLast.unchanged (h : WritesLast self m) {s : Session} {f : Fault}
    (hf : (m.perform s).1 = .error f) : (m.perform s).2 = s := by
  induction h with
  | commit value unit power => simp [commit_succeeds] at hf
  | refusal f => rfl
  | @reading _ m k hm _ ih =>
    -- The part in front is known by what it leaves; the rest starts where it started.
    have hs : m.perform s = ((m.perform s).1, s) := Prod.ext rfl (hm s)
    rw [Action.perform_bind, hs] at hf ⊢
    cases he : (m.perform s).1 with
    | error g => rfl
    | ok a =>
      rw [he] at hf
      exact ih a hf

/-- An operation in place that fails leaves every quantity of the session as it was, whatever the
fields of the quantities hold and whatever it is given. All that can fail stands in front of the
three writes, and none of these fails. -/
theorem failed_change (registry : Except Fault Registry) (s : Session) (subject : String)
    (c : Change) :
    (∀ f, (s.step registry (.change subject c)).1 = .error f →
      (s.step registry (.change subject c)).2 = s) ∧
    WritesLast subject (change subject c) ∧
    ∀ value unit power t, ((commit subject value unit power).perform t).1 = .ok () := by
  have hlast : WritesLast subject (change subject c) := writesLast_change c
  refine ⟨fun f hf => ?_, hlast, commit_succeeds subject⟩
  simp only [step, act, Action.perform_bind] at hf ⊢
  split at hf
  · cases hf
  · rename_i g t hp
    have hs := hlast.unchanged (congrArg Prod.fst hp)
    rw [hp] at hs
    exact hs

/-- An angle whose power was overwritten, beside a sound length. -/
def damaged : Session where
  bindings :=
    [("a", { Quantity.ofParts (.int 0) (.ofInt 350) .degrees 1 .none with power := .single .none }),
      ("b", Quantity.ofParts (.int 0) (.ofInt 1) .millipoints 1 .none)]
  marks := 1

theorem failed_change_damaged :
    (∃ f, (damaged.step (.ok ⟨[], []⟩) (.change "a" (.apply .multiply (.named "a")))).1
      = .error f) ∧
      (damaged.step (.ok ⟨[], []⟩) (.change "a" (.apply .multiply (.named "a")))).2 = damaged := by
  have hf : (damaged.step (.ok ⟨[], []⟩) (.change "a" (.apply .multiply (.named "a")))).1
      = .error (.unsupportedOperands "+" "NoneType" "NoneType") := rfl
  exact ⟨⟨_, hf⟩, (failed_change (.ok ⟨[], []⟩) damaged "a" (.apply .multiply (.named "a"))).1 _ hf⟩

end Session

end Measures
