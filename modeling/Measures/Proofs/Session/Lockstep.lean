import Mathlib.Data.List.Forall2
import Measures.Proofs.Quantity.Alike
import Measures.Proofs.Session.Step

/-!
# Two sessions in lockstep

Requests that differ in nothing but their values take alike sessions to alike sessions, and fail in
both for the same cause or in neither. Dimensions and failures thus tell nothing about values.
-/

namespace Measures

/-! ## What is alike -/

/-- Arguments of one shape: the same variable, any two floats, or the same datum. -/
inductive Argument.Alike : Argument → Argument → Prop
  | named (name : String) : Alike (.named name) (.named name)
  | float (x y : Binary64) : Alike (.datum (.float x)) (.datum (.float y))
  | datum (d : Datum) : Alike (.datum d) (.datum d)

/-- Recipes with the same data in all places but that of the value. -/
inductive Recipe.Alike : Recipe → Recipe → Prop
  | full {a b : Argument} (h : a.Alike b) (property unit power literal : Datum) :
    Alike (.full (.datum property) a (.datum unit) (.datum power) (.datum literal))
      (.full (.datum property) b (.datum unit) (.datum power) (.datum literal))
  | ofProperty {a b : Argument} (h : a.Alike b) (property unit power literal : Datum) :
    Alike (.ofProperty (.datum property) a (.datum unit) (.datum power) (.datum literal))
      (.ofProperty (.datum property) b (.datum unit) (.datum power) (.datum literal))
  | ofKind {a b : Argument} (h : a.Alike b) (kind : Quantity.Kind) (property : Datum)
    (unit : Option Datum) :
    Alike (.ofKind kind (.datum property) a (unit.map .datum))
      (.ofKind kind (.datum property) b (unit.map .datum))

inductive Change.Alike : Change → Change → Prop
  | apply (verb : Verb) {a b : Argument} (h : a.Alike b) : Alike (.apply verb a) (.apply verb b)
  | operator (verb : Verb) {a b : Argument} (h : a.Alike b) :
    Alike (.operator verb a) (.operator verb b)
  | negate : Alike .negate .negate

/-- The same step with alike arguments; none that overwrites a field. -/
inductive Step.Alike : Step → Step → Prop
  | make {recipe other : Recipe} (h : recipe.Alike other) (target : String) :
    Alike (.make recipe target) (.make other target)
  | copy (source target : String) : Alike (.copy source target) (.copy source target)
  | opposite (source target : String) : Alike (.opposite source target) (.opposite source target)
  | change (subject : String) {c d : Change} (h : c.Alike d) :
    Alike (.change subject c) (.change subject d)
  | ask (subject : String) (query : Query) : Alike (.ask subject query) (.ask subject query)
  | compare (subject : String) (comparison : Comparison) {a b : Argument} (h : a.Alike b) :
    Alike (.compare subject comparison a) (.compare subject comparison b)
  | describe (subject : String) : Alike (.describe subject) (.describe subject)
  | validate (subject : String) : Alike (.validate subject) (.validate subject)

structure Request.Alike (r r' : Request) : Prop where
  registry : r.registry = r'.registry
  step : r.step.Alike r'.step

namespace Session

/-- The same variables with alike quantities. -/
def Alike (s t : Session) : Prop := ∀ name, Option.Rel Quantity.Alike (s.get? name) (t.get? name)

/-- Two outcomes of a step: both succeed or both fail for one cause, and leave alike sessions. -/
def Matches (o p : Except Fault Answer × Session) : Prop := Agree Any o.1 p.1 ∧ o.2.Alike p.2

variable {registry : Except Fault Registry} {s t : Session}

theorem alike_empty : empty.Alike empty := fun _ => .none

theorem Alike.put (h : s.Alike t) {q r : Quantity} (hq : q.Alike r) (name : String) :
    (s.put name q).Alike (t.put name r) := by
  intro n
  rw [get?_put, get?_put]
  split
  · exact .some hq
  · exact h n

/-! ## Reading -/

theorem Alike.get (h : s.Alike t) (name : String) :
    Agree Quantity.Alike (s.get name) (t.get name) := by
  unfold Session.get
  generalize s.get? name = x, t.get? name = y, h name = hn
  cases hn with
  | some hq => exact .ok hq
  | none => exact .error _

theorem Alike.operand (h : s.Alike t) {a b : Argument} (ha : a.Alike b) :
    Agree Operand.Alike (s.operand a) (t.operand b) := by
  cases ha with
  | named name => exact (h.get name).map fun _ _ hq => .quantity hq
  | float x y => exact .ok (.float x y)
  | datum d => exact .ok (.datum d)

/-! ## Making -/

theorem Alike.make (h : s.Alike t) {recipe other : Recipe} (hr : recipe.Alike other) :
    Agree Quantity.Alike (s.make registry recipe) (t.make registry other) := by
  cases hr with
  | full ha property unit power literal =>
    exact (h.operand ha).bind fun _ _ ho => Quantity.alike_make ho _ _ _ _
  | ofProperty ha property unit power literal =>
    refine (Agree.same (.ok (Operand.datum property))).bind ?_
    rintro property _ rfl
    refine (Agree.same _).bind ?_
    rintro index _ rfl
    exact (h.operand ha).bind fun _ _ ho => Quantity.alike_make ho _ _ _ _
  | ofKind ha kind property unit =>
    refine (Agree.same (.ok (Operand.datum property))).bind ?_
    rintro property _ rfl
    refine (Agree.same _).bind ?_
    rintro index _ rfl
    refine (h.operand ha).bind fun _ _ ho => ?_
    cases unit with
    | none => exact Quantity.alike_ofKind ho _ _ _
    | some d => exact Quantity.alike_ofKind ho _ _ _

theorem Alike.changed (h : s.Alike t) (subject : String) {c d : Change} (hc : c.Alike d) :
    Agree Quantity.Alike (s.changed subject c) (t.changed subject d) := by
  cases hc with
  | apply verb ha =>
    refine (h.get subject).bind fun q r hq => ?_
    exact (h.operand ha).bind fun o p ho => hq.apply ho verb
  | operator verb ha =>
    refine (h.get subject).bind fun q r hq => ?_
    exact (h.operand ha).bind fun o p ho => hq.applyOperator ho verb
  | negate => exact (h.get subject).map fun _ _ hq => hq.negate

/-! ## Steps and runs -/

theorem Alike.ending_put (h : s.Alike t) {e e' : Except Fault Quantity}
    {next : Quantity → Quantity} {answer : Quantity → Answer} (he : Agree Quantity.Alike e e')
    (hnext : ∀ q r, q.Alike r → (next q).Alike (next r)) (target : String) :
    Matches (s.ending (e >>= fun q => .ok (answer q, s.put target (next q))))
      (t.ending (e' >>= fun q => .ok (answer q, t.put target (next q)))) := by
  cases he with
  | ok hq => exact ⟨.ok trivial, h.put (hnext _ _ hq) target⟩
  | error f => exact ⟨.error f, h⟩

theorem Alike.step (h : s.Alike t) {action other : Step} (ha : action.Alike other) :
    Matches (s.step registry action) (t.step registry other) := by
  cases ha with
  | make hr target =>
    rw [step_make, step_make]
    exact h.ending_put (h.make hr) (fun _ _ hq => hq) target
  | copy source target =>
    rw [step_copy, step_copy]
    exact h.ending_put (h.get source) (fun _ _ hq => hq) target
  | opposite source target =>
    rw [step_opposite, step_opposite]
    exact h.ending_put (h.get source) (fun _ _ hq => hq.negate) target
  | change subject hc =>
    rw [step_change, step_change]
    exact h.ending_put (h.changed subject hc) (fun _ _ hq => hq) subject
  | ask subject query =>
    rw [step_ask, step_ask]
    refine ⟨(h.get subject).bind fun q r hq => ?_, h⟩
    exact (hq.answer query).bind fun _ _ _ => .ok trivial
  | compare subject comparison ha =>
    rw [step_compare, step_compare]
    refine ⟨(h.get subject).bind fun q r hq => ?_, h⟩
    refine (h.operand ha).bind fun o p ho => ?_
    cases comparison with
    | max | min => exact (hq.compare ho _ _).bind fun _ _ _ => .ok trivial
  | describe subject =>
    rw [step_describe, step_describe]
    refine ⟨(h.get subject).bind fun q r hq => ?_, h⟩
    exact hq.describe.bind fun _ _ _ => .ok trivial
  | validate subject =>
    rw [step_validate, step_validate]
    refine ⟨(h.get subject).bind fun q r hq => ?_, h⟩
    rw [hq.validate]
    exact (Agree.same _).bind fun _ _ _ => .ok trivial

/-- Requests that differ in nothing but their values succeed and fail together, for the same causes,
and leave alike quantities in the same variables after each step. -/
theorem trace_matches (h : s.Alike t) {requests others : List Request}
    (hr : List.Forall₂ Request.Alike requests others) :
    List.Forall₂ Matches (s.trace requests) (t.trace others) := by
  unfold trace
  induction hr generalizing s t with
  | nil => exact .nil
  | @cons r r' _ _ hrr _ ih =>
    have hstep : Matches (s.step r.registry r.step) (t.step r'.registry r'.step) := by
      rw [hrr.registry]
      exact h.step hrr.step
    exact .cons hstep (ih hstep.2)

/-- A number that is divided by a float, held against a registry and added to a length. -/
def ratio (x y z : Binary64) : List Request :=
  [.make (.ofKind .number (.datum (.int 0)) (.datum (.float x)) none) "a",
    .change "a" (.apply .divide (.datum (.float y))),
    .ask "a" .round,
    .validate "a",
    .make (.ofKind .length (.datum (.int 0)) (.datum (.float z)) none) "b",
    .change "b" (.operator .add (.named "a"))].map fun action => ⟨.ok ⟨[], []⟩, action⟩

theorem alike_ratio (x y z x' y' z' : Binary64) :
    List.Forall₂ Request.Alike (ratio x y z) (ratio x' y' z') := by
  have hkind (kind : Quantity.Kind) (v w : Binary64) (target : String) :
      Step.Alike (.make (.ofKind kind (.datum (.int 0)) (.datum (.float v)) none) target)
        (.make (.ofKind kind (.datum (.int 0)) (.datum (.float w)) none) target) :=
    .make (.ofKind (.float v w) kind (.int 0) none) target
  refine .cons ⟨rfl, hkind _ _ _ _⟩ (.cons ⟨rfl, .change _ (.apply _ (.float _ _))⟩ ?_)
  refine .cons ⟨rfl, .ask _ _⟩ (.cons ⟨rfl, .validate _⟩ (.cons ⟨rfl, hkind _ _ _ _⟩ ?_))
  exact .cons ⟨rfl, .change _ (.operator _ (.named _))⟩ .nil

theorem matches_ratio :
    empty.Alike empty ∧
      List.Forall₂ Request.Alike (ratio (.ofInt 1) (.zero false) .nan)
        (ratio .nan (.ofInt 2) (.ofInt 3)) ∧
      (empty.trace (ratio (.ofInt 1) (.zero false) .nan)).map (·.1.isOk)
        = [true, true, true, false, true, false] ∧
      List.Forall₂ Matches (empty.trace (ratio (.ofInt 1) (.zero false) .nan))
        (empty.trace (ratio .nan (.ofInt 2) (.ofInt 3))) := by
  have hratio := alike_ratio (.ofInt 1) (.zero false) .nan .nan (.ofInt 2) (.ofInt 3)
  exact ⟨alike_empty, hratio, by decide +kernel, trace_matches alike_empty hratio⟩

end Session

end Measures
