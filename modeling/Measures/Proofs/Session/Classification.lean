import Measures.Proofs.Catalog.Step
import Measures.Proofs.Quantity.Classification
import Measures.Proofs.Session.Rules
import Measures.Proofs.Session.Validation

/-!
# Validation at every time of a run

Whatever a run has done to a quantity, its validation is judged by the predicates that classify it.
-/

namespace Measures.Session

open Quantity (HasDimension)

variable {s : Session} {q : Quantity} {r : Registry} {n : String}

theorem step_validate_of_get? (h : s.get? n = some q) (registry : Except Fault Registry) :
    s.step registry (.validate n) = ((q.validate registry).map fun _ => .nothing, s) := by
  rw [step_validate, get_eq_ok_iff.2 h, ok_bind]
  cases q.validate registry <;> rfl

/-- In a run that overwrites nothing, a quantity is of one category at most by the predicates that
classify it. Validation succeeds exactly if the registry has its property for this category, finds
the property unknown exactly if there is a category but no such property, and refuses the value in
all other cases; no base unit goes unrecognized. The session stays as it was, and wherever
registries are kept, every one of them does. -/
theorem judged_of_run {requests : List Request} (ho : ∀ r ∈ requests, ¬ r.step.Overwrites) :
    (∀ o ∈ empty.trace requests, ∀ n q, o.2.get? n = some q →
      (∀ c c', q.isA c = true → q.isA c' = true → c = c') ∧
      ∀ r, r.Reachable → ∀ i, q.property.integer? = some i →
        let outcome := o.2.step (.ok r) (.validate n)
        outcome.2 = o.2 ∧ q.Judges r i outcome.1 ∧
          ∀ f, outcome.1 = .error f → f.kind ≠ .unrecognizedUnit) ∧
    ∀ (c : Catalog) arguments useCurrent id, id < c.nextId →
      (c.perform (.validate arguments useCurrent)).next.registry id = c.registry id := by
  refine ⟨fun o hmem n q hq => ?_, fun c arguments useCurrent id hid =>
    Catalog.registry_validate c arguments useCurrent hid⟩
  obtain ⟨d, hqd, hd⟩ := exists_dimension_of_run ho hmem hq
  constructor
  · intro c c' hc hc'
    have hok := (hqd.category_eq_ok_iff hd).2 hc
    exact Except.ok.inj (hok.symm.trans ((hqd.category_eq_ok_iff hd).2 hc'))
  · intro r hr i hi outcome
    have hstep : outcome = _ := step_validate_of_get? hq (.ok r)
    have hjudges : q.Judges r i outcome.1 := by
      rw [hstep]
      exact (hqd.judges hd hr hi).map _
    refine ⟨by rw [hstep], hjudges, fun f hf => ?_⟩
    rcases hjudges.kind hf with hkind | hkind
    · rw [hkind]
      decide
    · rw [hkind]
      decide

/-- A length and an angle of one property, and a length and a factor of ems of another. -/
def spacing : List Request :=
  [.make (.ofFloat .length (.int 12) (.ofInt 2) none) "length",
    .make (.ofFloat .angle (.int 12) (.ofInt 2) none) "angle",
    .make (.ofFloat .length (.int 5) (.ofInt 2) none) "unknown",
    .make (.ofFloat .ems (.int 5) (.ofInt 2) none) "factor"].map fun action => ⟨.ok .empty, action⟩

theorem judged_of_run_spacing :
    (∀ r ∈ spacing, ¬ r.step.Overwrites) ∧ ∃ o ∈ empty.trace spacing, ∃ r, r.Reachable ∧
      let answer n := (o.2.step (.ok r) (.validate n)).1
      (∃ a, answer "length" = .ok a) ∧
      (∃ f, answer "angle" = .error f ∧ f.kind = .propertyValidation) ∧
      (∃ f, answer "unknown" = .error f ∧ f.kind = .unknownProperty) ∧
      ∃ f, answer "factor" = .error f ∧ f.kind = .propertyValidation := by
  have ho : ∀ r ∈ spacing, ¬ r.step.Overwrites := by simp [spacing, Recipe.ofFloat, Step.Overwrites]
  have hmem : _ ∈ empty.trace spacing := List.mem_of_getLast? rfl
  have hmade : Registry.ofDefinitions [lineHeight] = .ok (Registry.empty.extended lineHeight) := rfl
  have hr := Registry.Reachable.made hmade
  have hjudged := (judged_of_run ho).1 _ hmem
  refine ⟨ho, _, hmem, _, hr, ?_, ?_, ?_, ?_⟩
  · refine ((hjudged "length" _ rfl).2 _ hr 12 rfl).2.1.accepts.2 ?_
    exact ⟨.length, rfl, lineHeight, List.mem_singleton.2 rfl, rfl, rfl⟩
  · refine ((hjudged "angle" _ rfl).2 _ hr 12 rfl).2.1.refuses.2 ⟨?_, ?_⟩
    · rintro ⟨c, hc, d, hd, -, hcontains⟩
      obtain rfl : d = lineHeight := List.mem_singleton.1 hd
      obtain rfl : c = .angle := (hjudged "angle" _ rfl).1 c .angle hc rfl
      cases hcontains
    · exact fun h => h.2 lineHeight (List.mem_singleton.2 rfl) rfl
  · refine ((hjudged "unknown" _ rfl).2 _ hr 5 rfl).2.1.unknown.2 ⟨⟨.length, rfl⟩, fun d hd => ?_⟩
    obtain rfl : d = lineHeight := List.mem_singleton.1 hd
    decide
  · refine ((hjudged "factor" _ rfl).2 _ hr 5 rfl).2.1.refuses.2 ⟨?_, ?_⟩
    · rintro ⟨c, hc, -⟩
      cases c <;> cases hc
    · rintro ⟨⟨c, hc⟩, -⟩
      cases c <;> cases hc

end Measures.Session
