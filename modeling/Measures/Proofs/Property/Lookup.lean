import Mathlib.Data.List.Sort
import Measures.Proofs.Property.Registry
import Measures.Property.Lookup

/-!
# Answers of registries

The order in which definitions were added is no part of any answer.
-/

namespace Measures.Registry

variable {r r' : Registry} {ds es : List Definition}

/-- Two registries give the same answers. -/
def Same (r r' : Registry) : Prop := ∀ lookup : Lookup, lookup.answer r = lookup.answer r'

theorem Holds.atIndex?_perm (h : r.Holds ds) (h' : r'.Holds es) (hperm : ds.Perm es) :
    r.atIndex? = r'.atIndex? := by
  funext i
  refine Option.ext fun d => ?_
  rw [h.atIndex?_eq_some_iff, h'.atIndex?_eq_some_iff, hperm.mem_iff]

theorem Holds.named?_perm (h : r.Holds ds) (h' : r'.Holds es) (hperm : ds.Perm es) :
    r.named? = r'.named? := by
  funext n
  refine Option.ext fun d => ?_
  rw [h.named?_eq_some_iff, h'.named?_eq_some_iff, hperm.mem_iff]

/-- The definitions have one order by their indices. -/
theorem Holds.toList_eq_of_perm (h : r.Holds ds) (h' : r'.Holds es) (hperm : ds.Perm es) :
    r.toList = r'.toList := by
  have hlists : r.toList.Perm r'.toList := (h.toList_perm.trans hperm).trans h'.toList_perm.symm
  refine hlists.eq_of_pairwise ?_ h.toList_pairwise h'.toList_pairwise
  intro a b _ _ hlt hgt
  omega

theorem Holds.same_of_perm (h : r.Holds ds) (h' : r'.Holds es) (hperm : ds.Perm es) :
    r.Same r' := by
  have hindex := h.atIndex?_perm h' hperm
  have hname := h.named?_perm h' hperm
  have hget (key : Datum) : r.get key = r'.get key := by rw [get_eq, get_eq, hindex]
  have hbyName (key : Datum) : r.byName key = r'.byName key := by rw [byName_eq, byName_eq, hname]
  intro lookup
  cases lookup with
  | get key => rw [Lookup.answer, Lookup.answer, hget]
  | byName key => rw [Lookup.answer, Lookup.answer, hbyName]
  | propertyIndex key =>
    rw [Lookup.answer, Lookup.answer, propertyIndex, propertyIndex, hbyName]
  | legalCategories key =>
    rw [Lookup.answer, Lookup.answer, legalCategories, legalCategories, hget]
  | isLegal key category => rw [Lookup.answer, Lookup.answer, isLegal, isLegal, hget]
  | contains key => rw [Lookup.answer, Lookup.answer, contains, contains, hindex, hname]
  | size =>
    have hsize : r.size = r'.size := by
      rw [size, size, h.indexed, h'.indexed, List.length_map, List.length_map, hperm.length_eq]
    rw [Lookup.answer, Lookup.answer, hsize]
  | list => rw [Lookup.answer, Lookup.answer, h.toList_eq_of_perm h' hperm]

end Measures.Registry
