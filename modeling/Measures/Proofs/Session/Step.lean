import Measures.Proofs.Failure
import Measures.Proofs.Session.Change
import Measures.Session

/-!
# What a step comes to

One equation for each step: a fault and the session as it was, or an answer and the session that
follows.
-/

namespace Measures.Session

variable {registry : Except Fault Registry} {s : Session}

/-- The end of a step that either gives an answer and a next session, or fails. -/
def ending (s : Session) : Except Fault (Answer × Session) → Except Fault Answer × Session
  | .ok (answer, next) => (.ok answer, next)
  | .error f => (.error f, s)

/-! ## Recipes -/

section Recipes

variable {q : Quantity} {property value unit power literal : Argument}

theorem exists_of_make_full
    (h : s.make registry (.full property value unit power literal) = .ok q) :
    ∃ p v u k l, s.operand unit = .ok u ∧ s.operand power = .ok k ∧
      Quantity.make p v u k l = .ok q := by
  obtain ⟨p, -, h⟩ := bind_eq_ok.1 h
  obtain ⟨v, -, h⟩ := bind_eq_ok.1 h
  obtain ⟨u, hu, h⟩ := bind_eq_ok.1 h
  obtain ⟨k, hk, h⟩ := bind_eq_ok.1 h
  obtain ⟨l, -, h⟩ := bind_eq_ok.1 h
  exact ⟨p, v, u, k, l, hu, hk, h⟩

theorem exists_of_make_ofProperty
    (h : s.make registry (.ofProperty property value unit power literal) = .ok q) :
    ∃ p v u k l, s.operand unit = .ok u ∧ s.operand power = .ok k ∧
      Quantity.make p v u k l = .ok q := by
  obtain ⟨_, -, h⟩ := bind_eq_ok.1 h
  obtain ⟨_, -, h⟩ := bind_eq_ok.1 h
  obtain ⟨v, -, h⟩ := bind_eq_ok.1 h
  obtain ⟨u, hu, h⟩ := bind_eq_ok.1 h
  obtain ⟨k, hk, h⟩ := bind_eq_ok.1 h
  obtain ⟨l, -, h⟩ := bind_eq_ok.1 h
  exact ⟨_, v, u, k, l, hu, hk, h⟩

theorem exists_of_make_ofKind {kind : Quantity.Kind} {given : Option Argument}
    (h : s.make registry (.ofKind kind property value given) = .ok q) :
    ∃ p v u, given.mapM s.operand = .ok u ∧ Quantity.ofKind kind p v u = .ok q := by
  obtain ⟨_, -, h⟩ := bind_eq_ok.1 h
  obtain ⟨p, -, h⟩ := bind_eq_ok.1 h
  obtain ⟨v, -, h⟩ := bind_eq_ok.1 h
  obtain ⟨u, hu, h⟩ := bind_eq_ok.1 h
  exact ⟨p, v, u, hu, h⟩

end Recipes

/-! ## Steps that write -/

theorem step_make (recipe : Recipe) (target : String) :
    s.step registry (.make recipe target) = s.ending (do
      let q ← s.make registry recipe
      return (.made, s.put target q)) := by
  simp only [step, act]
  refine Action.perform_reads_bind (fun _ => rfl) (perform_readRecipe registry recipe s)
    fun q _ => ?_
  rfl

theorem step_copy (source target : String) :
    s.step registry (.copy source target) = s.ending (do
      let q ← s.get source
      return (.copied q, s.put target q)) := by
  simp only [step, act]
  refine Action.perform_reads_bind (fun _ => rfl) (perform_read source s) fun q _ => ?_
  rfl

theorem step_opposite (source target : String) :
    s.step registry (.opposite source target) = s.ending (do
      let q ← s.get source
      return (.copied q.negate, s.put target q.negate)) := by
  simp only [step, act]
  refine Action.perform_reads_bind (fun _ => rfl) (perform_read source s) fun q _ => ?_
  rfl

theorem step_change (subject : String) (c : Change) :
    s.step registry (.change subject c) = s.ending (do
      let q ← s.changed subject c
      return (.changed, s.put subject q)) := by
  simp only [step, act, Action.perform_bind, perform_change]
  cases s.changed subject c <;> rfl

theorem step_change_of_ok {subject : String} {c : Change} {q : Quantity}
    (h : s.changed subject c = .ok q) :
    s.step registry (.change subject c) = (.ok .changed, s.put subject q) := by
  rw [step_change, h]
  rfl

theorem step_change_of_error {subject : String} {c : Change} {f : Fault}
    (h : s.changed subject c = .error f) :
    s.step registry (.change subject c) = (.error f, s) := by
  rw [step_change, h]
  rfl

theorem step_overwrite (subject : String) (field : Field) (content : Argument) :
    s.step registry (.overwrite subject field content) = s.ending (do
      let q ← s.get subject
      let o ← s.operand content
      let d ← o.kept
      return (.nothing,
        { s.put subject (q.overwrite field d s.marks) with marks := s.marks + 1 })) := by
  simp only [step, act]
  refine Action.perform_reads_bind (fun _ => rfl) (perform_read subject s) fun q _ => ?_
  refine Action.perform_reads_bind (fun _ => rfl) (perform_readOperand content s) fun o _ => ?_
  refine Action.perform_reads_bind (fun _ => rfl) (Action.perform_liftM _ s) fun d _ => ?_
  rfl

/-! ## Steps that ask -/

theorem step_ask (subject : String) (query : Query) :
    s.step registry (.ask subject query) = (do
      let q ← s.get subject
      let d ← query.answer q
      return .datum d, s) := by
  simp only [step, act]
  refine Action.perform_reads (perform_read subject s) fun q => ?_
  refine Action.perform_reads (Action.perform_liftM _ s) fun d => ?_
  rfl

theorem step_compare (subject : String) (comparison : Comparison) (a : Argument) :
    s.step registry (.compare subject comparison a) = (do
      let q ← s.get subject
      let o ← s.operand a
      let x ← q.pick comparison o
      return .datum (.float x), s) := by
  simp only [step, act]
  refine Action.perform_reads (perform_read subject s) fun q => ?_
  refine Action.perform_reads (perform_readOperand a s) fun o => ?_
  refine Action.perform_reads (Action.perform_liftM _ s) fun x => ?_
  rfl

theorem step_describe (subject : String) :
    s.step registry (.describe subject) = (do
      let q ← s.get subject
      let d ← q.describe
      return .description d, s) := by
  simp only [step, act]
  refine Action.perform_reads (perform_read subject s) fun q => ?_
  refine Action.perform_reads (Action.perform_liftM _ s) fun d => ?_
  rfl

theorem step_validate (subject : String) :
    s.step registry (.validate subject) = (do
      let q ← s.get subject
      q.validate registry
      return .nothing, s) := by
  simp only [step, act]
  refine Action.perform_reads (perform_read subject s) fun q => ?_
  refine Action.perform_reads (Action.perform_liftM _ s) fun _ => ?_
  rfl

end Measures.Session
