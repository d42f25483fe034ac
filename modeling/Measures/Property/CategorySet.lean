import Measures.Property.Category

/-!
# Sets of categories

A set lists its members in the order of their texts, so that equal sets are equal lists.
-/

namespace Measures

structure CategorySet where
  toList : List Category
  canonical : Category.sorted.filter toList.contains = toList
  deriving DecidableEq

namespace CategorySet

/-- The set of the members of a list, in any order and with any repeats. -/
def ofList (cs : List Category) : CategorySet where
  toList := Category.sorted.filter cs.contains
  canonical := by
    apply List.filter_congr
    intro c hc
    simp only [List.contains_eq_mem, List.mem_filter, hc, true_and]
    simp

def contains (s : CategorySet) (c : Category) : Bool := s.toList.contains c

def isEmpty (s : CategorySet) : Bool := s.toList.isEmpty

@[simp] theorem contains_ofList (cs : List Category) (c : Category) :
    (ofList cs).contains c = cs.contains c := by
  simp [contains, ofList, Category.mem_sorted]

theorem isEmpty_eq_false_iff {s : CategorySet} :
    s.isEmpty = false ↔ ∃ c, s.contains c = true := by
  rw [isEmpty, List.isEmpty_eq_false_iff_exists_mem]
  exact exists_congr fun c => List.contains_iff_mem.symm

theorem ext_contains {s t : CategorySet} (h : ∀ c, s.contains c = t.contains c) : s = t := by
  obtain ⟨xs, hx⟩ := s
  obtain ⟨ys, hy⟩ := t
  simp only [contains] at h
  congr 1
  rw [← hx, ← hy]
  exact List.filter_congr fun c _ => h c

end CategorySet

end Measures
