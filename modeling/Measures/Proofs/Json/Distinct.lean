import Mathlib.Data.List.Sort
import Mathlib.Data.String.Basic
import Measures.Json.Compare

/-!
# Distinct texts

Texts can be ordered, so that an array of them is sorted and only neighbours are compared. That
finds two equal texts wherever they stand.
-/

namespace Measures.Json

variable {ts : List String}

/-! ## Sorting texts -/

theorem insertSorted_text (s : String) :
    insertSorted (.str s) (ts.map .str) = (ts.orderedInsert (· < ·) s).map .str := by
  induction ts with
  | nil => rfl
  | cons t rest ih =>
    simp only [List.map_cons, insertSorted, less?, lessInside?, Option.some.injEq,
      decide_eq_true_eq, List.orderedInsert]
    split
    · rfl
    · rw [ih, List.map_cons]

theorem pairwise_orderedInsert (s : String) (h : ts.Pairwise (· ≤ ·)) :
    (ts.orderedInsert (· < ·) s).Pairwise (· ≤ ·) := by
  induction ts with
  | nil => simp
  | cons t rest ih =>
    obtain ⟨ht, hrest⟩ := List.pairwise_cons.1 h
    rw [List.orderedInsert]
    split
    · rename_i hlt
      have hall : ∀ u ∈ rest, s ≤ u := fun u hu => le_trans (le_of_lt hlt) (ht u hu)
      exact List.pairwise_cons.2 ⟨List.forall_mem_cons.2 ⟨le_of_lt hlt, hall⟩, h⟩
    · rename_i hge
      refine List.pairwise_cons.2 ⟨fun u hu => ?_, ih hrest⟩
      rcases (List.mem_orderedInsert _).1 hu with rfl | hu
      · exact not_lt.1 hge
      · exact ht u hu

/-- Sorting an array of texts rearranges them in ascending order. -/
theorem sorted_texts (ts : List String) :
    ∃ us : List String, sorted (ts.map .str) = us.map .str ∧ us.Perm ts ∧ us.Pairwise (· ≤ ·) := by
  -- The texts that are sorted already are those before the rest of the array.
  have hrest (rest done : List String) (h : done.Pairwise (· ≤ ·)) :
      ∃ us : List String,
        (rest.map Json.str).foldl (fun done x => insertSorted x done) (done.map .str)
          = us.map .str ∧ us.Perm (rest ++ done) ∧ us.Pairwise (· ≤ ·) := by
    induction rest generalizing done with
    | nil => exact ⟨done, rfl, .refl _, h⟩
    | cons t rest ih =>
      obtain ⟨us, hus, hperm, hsorted⟩ := ih _ (pairwise_orderedInsert t h)
      refine ⟨us, ?_, ?_, hsorted⟩
      · rw [List.map_cons, List.foldl_cons, insertSorted_text, hus]
      · have hinsert := (List.perm_orderedInsert (· < ·) t done).append_left rest
        exact (hperm.trans hinsert).trans List.perm_middle
  obtain ⟨us, hus, hperm, hsorted⟩ := hrest ts [] .nil
  rw [List.append_nil] at hperm
  exact ⟨us, hus, hperm, hsorted⟩

/-! ## Comparing neighbours -/

theorem neighboursDistinct_texts :
    neighboursDistinct (ts.map .str) = true ↔ ts.IsChain (· ≠ ·) := by
  induction ts with
  | nil => simp [neighboursDistinct]
  | cons s rest ih =>
    cases rest with
    | nil => simp [neighboursDistinct]
    | cons t rest =>
      simp only [List.map_cons] at ih
      simp [neighboursDistinct, ih, equal, equalWith]

theorem nodup_of_chain (h : ts.Pairwise (· ≤ ·)) (hne : ts.IsChain (· ≠ ·)) : ts.Nodup := by
  have hle : ts.IsChain (· ≤ ·) := h.isChain
  have hlt : ts.IsChain (· < ·) := by
    rw [List.isChain_iff_getElem] at hle hne ⊢
    exact fun i hi => lt_of_le_of_ne (hle i hi) (hne i hi)
  exact (List.isChain_iff_pairwise.1 hlt).imp ne_of_lt

theorem allOrdered_texts (ts : List String) : allOrdered (ts.map .str) = true := by
  induction ts with
  | nil => rfl
  | cons t rest ih => simp [allOrdered, ih, less?, lessInside?]

theorem distinct_texts : distinct (ts.map .str) = true ↔ ts.Nodup := by
  obtain ⟨us, hus, hperm, hsorted⟩ := sorted_texts ts
  rw [distinct, if_pos (allOrdered_texts ts), hus, neighboursDistinct_texts, ← hperm.nodup_iff]
  constructor
  · exact nodup_of_chain hsorted
  · exact List.Pairwise.isChain

end Measures.Json
