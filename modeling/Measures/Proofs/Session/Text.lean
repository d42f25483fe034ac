import Measures.Proofs.Quantity.Text
import Measures.Proofs.Session.Rules

/-!
# Texts tell quantities apart

Two quantities that answer with one text are of one value, base unit and power, whatever runs they
come from.
-/

namespace Measures.Session

open Binary64 (ofInt)

variable {s : Session} {q : Quantity} {n : String}

theorem answer_text (hq : s.get? n = some q) (registry : Except Fault Registry) :
    (s.step registry (.ask n .text)).1 = .ok (.datum (.text q.text)) := by
  rw [answer_ask hq]
  rfl

/-- A text is always given, and it loses nothing but what the quantity was made with. -/
theorem text_inj_of_run {requests requests' : List Request}
    (ho : ∀ r ∈ requests, ¬ r.step.Overwrites) (ho' : ∀ r ∈ requests', ¬ r.step.Overwrites) :
    ∀ o ∈ empty.trace requests, ∀ o' ∈ empty.trace requests', ∀ n m q r,
      o.2.get? n = some q → o'.2.get? m = some r → ∀ registry registry',
        (∃ text, (o.2.step registry (.ask n .text)).1 = .ok (.datum (.text text))) ∧
        ((o.2.step registry (.ask n .text)).1 = (o'.2.step registry' (.ask m .text)).1 →
          q.value = r.value ∧ ∃ d, q.HasDimension d ∧ r.HasDimension d) := by
  intro o hmem o' hmem' n m q r hq hr registry registry'
  refine ⟨⟨q.text, answer_text hq registry⟩, fun h => ?_⟩
  rw [answer_text hq, answer_text hr, Except.ok.injEq, Answer.datum.injEq, Datum.text.injEq] at h
  obtain ⟨d, hqd, -⟩ := exists_dimension_of_run ho hmem hq
  obtain ⟨e, hre, -⟩ := exists_dimension_of_run ho' hmem' hr
  obtain ⟨hvalue, rfl⟩ := hqd.text_inj hre h
  exact ⟨hvalue, d, hqd, hre⟩

/-- An angle past the full turn, and the angle that it comes to. -/
def turned : List Request :=
  [.make (.ofFloat .angle (.int 0) (ofInt 370) none) "a",
    .make (.ofFloat .angle (.int 1) (ofInt 10) none) "b"].map fun action => ⟨.ok .empty, action⟩

theorem text_inj_of_run_turned :
    (∀ r ∈ turned, ¬ r.step.Overwrites) ∧ ∃ o ∈ empty.trace turned, ∃ q r,
      o.2.get? "a" = some q ∧ o.2.get? "b" = some r ∧
      (o.2.step (.ok .empty) (.ask "a" .text)).1 = .ok (.datum (.text "10.0degrees^1")) ∧
      (o.2.step (.ok .empty) (.ask "a" .text)).1 = (o.2.step (.ok .empty) (.ask "b" .text)).1 ∧
      q.value = r.value ∧ ∃ d, q.HasDimension d ∧ r.HasDimension d := by
  have ho : ∀ r ∈ turned, ¬ r.step.Overwrites := by
    simp [turned, Recipe.ofFloat, Step.Overwrites]
  have hmem : _ ∈ empty.trace turned := List.mem_of_getLast? rfl
  have htext {s : Session} {q : Quantity} {n : String} (hq : s.get? n = some q)
      (h : q.text = "10.0degrees^1") :
      (s.step (.ok .empty) (.ask n .text)).1 = .ok (.datum (.text "10.0degrees^1")) := by
    rw [answer_text hq, h]
  have hrun := text_inj_of_run ho ho _ hmem _ hmem "a" "b" _ _ rfl rfl (.ok .empty) (.ok .empty)
  refine ⟨ho, _, hmem, _, _, rfl, rfl, htext rfl (by decide +kernel), ?same, hrun.2 ?same⟩
  exact (htext rfl (by decide +kernel)).trans (htext rfl (by decide +kernel)).symm

end Measures.Session
