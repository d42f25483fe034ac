import Measures.Proofs.Property.Registration
import Measures.Property.Document

/-!
# Registries that can come about

A registry is made of definitions and then takes registrations. Whatever became of them, it holds
a list of definitions.
-/

namespace Measures.Registry

variable {r : Registry}

inductive Reachable : Registry → Prop
  | made {ds : List Definition} {r : Registry} (h : ofDefinitions ds = .ok r) : Reachable r
  | registered {j : Journal} (h : Reachable j.registry) (d : Definition) :
    Reachable ((Journal.register d).perform j).2.registry

theorem Reachable.holds (h : r.Reachable) : ∃ ds, r.Holds ds := by
  induction h with
  | made h => exact ⟨_, holds_of_ofDefinitions h⟩
  | @registered j _ d ih =>
    obtain ⟨ds, hds⟩ := ih
    rcases Journal.register_cases hds d with ⟨hd, hreg⟩ | ⟨-, f, -, hreg⟩
    · rw [hreg]
      exact ⟨ds ++ [d], hds.extended hd⟩
    · rw [hreg]
      exact ⟨ds, hds⟩

theorem Reachable.extended (h : r.Reachable) {ds : List Definition} {d : Definition}
    (hds : r.Holds ds) (hd : Fresh ds d) : (r.extended d).Reachable := by
  have hnext : (⟨r, []⟩ : Journal).registry.Reachable := h
  have hreachable := hnext.registered d
  rcases Journal.register_cases (show (⟨r, []⟩ : Journal).registry.Holds ds from hds) d with
    ⟨-, hreg⟩ | ⟨hnot, -⟩
  · rwa [hreg] at hreachable
  · exact absurd hd hnot

/-! ## Ways to make one -/

theorem reachable_empty : Reachable empty := .made (show ofDefinitions [] = .ok empty from rfl)

theorem reachable_of_ofDocumentUnder {schema : Schema} {doc : Json}
    (h : ofDocumentUnder schema doc = .ok r) : r.Reachable := by
  unfold ofDocumentUnder at h
  split at h
  · cases h
  · obtain ⟨value, -, h⟩ := bind_eq_ok.1 h
    obtain ⟨items, -, h⟩ := bind_eq_ok.1 h
    obtain ⟨ds, -, h⟩ := bind_eq_ok.1 h
    exact .made h

def addFields (fields : List (String × Json)) : Action Registry Unit := do
  add (← Definition.ofFields fields)

/-- Building definitions in between makes no difference to what is added. -/
theorem exists_forM_add {lists : List (List (String × Json))}
    (h : ((lists.forM addFields).perform r).1 = .ok ()) :
    ∃ ds : List Definition, (lists.forM addFields).perform r = (ds.forM add).perform r := by
  induction lists generalizing r with
  | nil => exact ⟨[], rfl⟩
  | cons fields rest ih =>
    simp only [List.forM_eq_forM, List.forM_cons, Action.perform_bind] at h ih ⊢
    cases hd : Definition.ofFields fields with
    | error f =>
      have hfields : (addFields fields).perform r = (.error f, r) := by
        rw [addFields, hd]
        rfl
      rw [hfields] at h
      cases h
    | ok d =>
      have hfields : addFields fields = add d := by
        rw [addFields, hd]
        rfl
      rw [hfields] at h ⊢
      rcases hadd : (add d).perform r with ⟨_ | _, next⟩
      · rw [hadd] at h
        cases h
      · rw [hadd] at h
        obtain ⟨ds, hds⟩ := ih h
        refine ⟨d :: ds, ?_⟩
        simp only [List.forM_cons, Action.perform_bind, hadd, hds]

theorem reachable_of_ofFieldLists {lists : List (List (String × Json))}
    (h : ofFieldLists lists = .ok r) : r.Reachable := by
  change built (lists.forM addFields) = .ok r at h
  obtain ⟨_, hok, rfl⟩ := map_eq_ok.1 h
  obtain ⟨ds, hds⟩ := exists_forM_add hok
  rw [hds] at hok ⊢
  exact .made (map_eq_ok.2 ⟨(), hok, rfl⟩)

end Measures.Registry
