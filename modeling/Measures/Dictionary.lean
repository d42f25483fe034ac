/-!
# Dictionaries

A dictionary is a list of entries that is read with `List.lookup`. Entries stand in the order in
which their keys were first set.
-/

namespace Measures.Dictionary

variable {κ α : Type} [DecidableEq κ]

/-! ## Entries under keys of their own -/

/-- Among values with keys of their own that are all different, a lookup finds the value with the
key. -/
theorem lookup_map_eq_some_iff {key : α → κ} {values : List α} (h : (values.map key).Nodup) {k : κ}
    {a : α} : (values.map fun a => (key a, a)).lookup k = some a ↔ a ∈ values ∧ key a = k := by
  induction values with
  | nil => simp
  | cons b rest ih =>
    obtain ⟨hb, hrest⟩ := List.nodup_cons.1 h
    have hnot (hmem : a ∈ rest) : key a ≠ key b := fun he => hb (he ▸ List.mem_map_of_mem hmem)
    rw [List.map_cons, List.lookup_cons]
    by_cases hk : k = key b
    · subst hk
      simp only [beq_self_eq_true, Option.some.injEq, List.mem_cons]
      constructor
      · rintro rfl
        exact ⟨.inl rfl, rfl⟩
      · rintro ⟨rfl | hmem, he⟩
        · rfl
        · exact absurd he (hnot hmem)
    · simp only [beq_eq_false_iff_ne.2 hk, List.mem_cons, ih hrest]
      constructor
      · rintro ⟨hmem, he⟩
        exact ⟨.inr hmem, he⟩
      · rintro ⟨rfl | hmem, he⟩
        · exact absurd he.symm hk
        · exact ⟨hmem, he⟩

theorem lookup_map_eq_none_iff {key : α → κ} {values : List α} {k : κ} :
    (values.map fun a => (key a, a)).lookup k = none ↔ ∀ a ∈ values, key a ≠ k := by
  simp only [List.lookup_eq_none_iff, List.mem_map, bne_iff_ne, forall_exists_index,
    and_imp, forall_apply_eq_imp_iff₂, ne_comm]

/-! ## Setting -/

/-- Sets a key: a known one keeps its place. -/
def set (key : κ) (value : α) : List (κ × α) → List (κ × α)
  | [] => [(key, value)]
  | (k, v) :: rest => if k = key then (k, value) :: rest else (k, v) :: set key value rest

theorem lookup_set (key k : κ) (value : α) (entries : List (κ × α)) :
    (set key value entries).lookup k = if k = key then some value else entries.lookup k := by
  induction entries with
  | nil => simp only [set, List.lookup_cons, List.lookup_nil]; split <;> simp_all
  | cons e rest ih =>
    simp only [set]
    split <;> simp only [List.lookup_cons, ih] <;> grind

@[simp] theorem set_set (key : κ) (v w : α) (entries : List (κ × α)) :
    set key w (set key v entries) = set key w entries := by
  induction entries with
  | nil => simp [set]
  | cons e rest ih =>
    simp only [set]
    split <;> rename_i h <;> simp [set, h, ih]

/-- A new key comes last. -/
theorem set_of_lookup_eq_none {key : κ} {entries : List (κ × α)}
    (h : entries.lookup key = none) (value : α) :
    set key value entries = entries ++ [(key, value)] := by
  induction entries with
  | nil => rfl
  | cons e rest ih =>
    rw [List.lookup_cons] at h
    split at h
    · cases h
    · rename_i hk
      have hne : e.1 ≠ key := fun he => by simp [he] at hk
      simp only [set, if_neg hne, ih h, List.cons_append]

end Measures.Dictionary
