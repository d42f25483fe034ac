import Measures.Proofs.Failure
import Measures.Proofs.Property.Contract
import Measures.Proofs.Property.Name
import Measures.Property.Definition

/-!
# Reading the items of a document

An item that the contract accepts says what its definition is, and only two things can keep it from
being read: a line feed at the end of its name, and a float index that is too large to convert.
-/

namespace Measures

open Property (WellFormedItem)

variable {fields : List (String × Json)} {d : Definition} {j : Json}

namespace Definition

/-! ## When fields are read -/

theorem needed_eq_ok_iff {α : Type} {key : String} {f : Json → Except (List Issue) α} {a : α} :
    needed fields key f = .ok a ↔ ∃ j, fields.lookup key = some j ∧ f j = .ok a := by
  unfold needed
  cases fields.lookup key <;> simp

/-- A definition is read if each of its fields is. -/
theorem read_eq_ok_iff :
    read fields = .ok d ↔
      (∃ j, fields.lookup "index" = some j ∧ readIndex j = .ok d.index) ∧
      (∃ j, fields.lookup "name" = some j ∧ readName j = .ok ⟨d.name, d.name_form⟩) ∧
      (∃ j, fields.lookup "categories" = some j ∧
        readCategories j = .ok ⟨d.categories, d.categories_ne⟩) ∧
      readDescription (fields.lookup "description") = .ok d.description := by
  constructor
  · intro h
    dsimp only [read] at h
    split at h
    · next hi hn hcs hd =>
      cases h
      obtain ⟨i, hli, hi⟩ := needed_eq_ok_iff.1 hi
      obtain ⟨n, hln, hn⟩ := needed_eq_ok_iff.1 hn
      exact ⟨⟨i, hli, mapError_eq_ok.1 hi⟩, ⟨n, hln, mapError_eq_ok.1 hn⟩,
        needed_eq_ok_iff.1 hcs, mapError_eq_ok.1 hd⟩
    · cases h
  · rintro ⟨⟨i, hli, hi⟩, ⟨n, hln, hn⟩, ⟨cs, hlcs, hcs⟩, hd⟩
    simp [read, needed, atKey, Except.mapError, hli, hi, hln, hn, hlcs, hcs, hd]

/-! ## Accepted fields -/

/-- A whole number that is not negative is read, unless it is a float that is too large. -/
theorem readIndex_eq_ok_iff {i : Int} {n : Nat} (hi : j.wholeNumber? = some i) (h : 0 ≤ i) :
    readIndex j = .ok n ↔ (n : Int) = i ∧ ∀ x, j = .float x → i < floatBound := by
  have hread : (Except.ok i.toNat : Except IssueKind Nat) = .ok n ↔ (n : Int) = i := by
    rw [Except.ok.injEq]
    omega
  cases j with
  | int k =>
    cases hi
    simp only [readIndex, integerOf, if_pos h, hread, reduceCtorEq, false_imp_iff, implies_true,
      and_true]
  | float x =>
    have hx : x.toInt? = some i := hi
    have hlow : -floatBound < i := Int.lt_of_lt_of_le (by decide) h
    by_cases hbound : i < floatBound
    · simp [readIndex, integerOf, hx, hlow, hbound, h, hread]
    · simp [readIndex, integerOf, hx, hbound]
  | _ => cases hi

theorem readName_eq_ok_iff {s : String} (h : Property.nameForm.occursIn s = true) {n : Name} :
    readName (.str s) = .ok n ↔ n.1 = s := by
  have hne : s ≠ "" := by
    rintro rfl
    obtain ⟨w, rest, hnil, hw, -⟩ := Property.occursIn_nameForm.1 h
    obtain ⟨rfl, -⟩ := List.append_eq_nil_iff.1 hnil.symm
    cases hw
  rw [readName, if_neg (by simp [Property.hasSurrogate_of_occursIn h]), if_neg hne]
  split
  · rw [Except.ok.injEq, Subtype.ext_iff, eq_comm]
  · next hname =>
    simp only [reduceCtorEq, false_iff]
    exact fun heq => hname (heq ▸ n.2)

theorem isName_name (d : Definition) : Property.isName d.name.toList = true :=
  Property.occursIn_strictNameForm.1 d.name_form

theorem category?_eq_some_iff {c : Category} : category? j = some c ↔ j = .str c.text := by
  cases j with
  | str s => rw [category?, Category.ofText?_eq_some_iff, Json.str.injEq]
  | _ => simp [category?]

theorem categoryIssues_eq_nil_iff {i : Nat} {js : List Json} :
    categoryIssues i js = [] ↔ ∀ k ∈ js, ∃ c, category? k = some c := by
  induction js generalizing i with
  | nil => simp [categoryIssues]
  | cons k rest ih =>
    rw [categoryIssues, List.append_eq_nil_iff, ih, List.forall_mem_cons]
    cases category? k <;> simp

theorem readCategories_of_texts {js : List Json} (hne : js ≠ [])
    (h : ∀ k ∈ js, ∃ c : Category, k = .str c.text) :
    ∃ cs : Categories, readCategories (.arr js) = .ok cs ∧
      ∀ c : Category, cs.1.contains c = true ↔ .str c.text ∈ js := by
  have hissues : categoryIssues 0 js = [] := by
    simp only [categoryIssues_eq_nil_iff, category?_eq_some_iff]
    exact h
  have hfound (c : Category) :
      (CategorySet.ofList (js.filterMap category?)).contains c = true ↔ .str c.text ∈ js := by
    simp [CategorySet.contains_ofList, category?_eq_some_iff]
  have hsome : (CategorySet.ofList (js.filterMap category?)).isEmpty = false := by
    obtain ⟨k, hk⟩ := List.exists_mem_of_ne_nil js hne
    obtain ⟨c, rfl⟩ := h k hk
    exact CategorySet.isEmpty_eq_false_iff.2 ⟨c, (hfound c).2 hk⟩
  refine ⟨⟨_, hsome⟩, ?_, hfound⟩
  simp [readCategories, hissues, hsome]

theorem readCategories_eq_ok_iff {js : List Json} {cs : Categories} (hne : js ≠ [])
    (h : ∀ k ∈ js, ∃ c : Category, k = .str c.text) :
    readCategories (.arr js) = .ok cs ↔
      ∀ c : Category, cs.1.contains c = true ↔ .str c.text ∈ js := by
  obtain ⟨found, hread, hfound⟩ := readCategories_of_texts hne h
  rw [hread, Except.ok.injEq, Subtype.ext_iff]
  constructor
  · intro heq
    exact heq ▸ hfound
  · intro hcs
    exact CategorySet.ext_contains fun c => Bool.eq_iff_iff.2 ((hfound c).trans (hcs c).symm)

theorem readDescription_eq_ok_iff {found : Option Json} {text : Option String}
    (h : ∀ k, found = some k → ∃ s, k = .str s) :
    readDescription found = .ok text ↔ found = text.map .str := by
  cases found with
  | none => cases text <;> simp [readDescription]
  | some k =>
    obtain ⟨s, rfl⟩ := h k rfl
    cases text <;> simp [readDescription]

/-! ## Accepted items -/

/-- An item writes a definition: its fields hold the index as a whole number, the name, the texts
of the categories in any order, and the description if there is one. -/
structure Writes (item : Json) (d : Definition) : Prop where
  index : ∃ j, item.get? "index" = some j ∧ j.wholeNumber? = some (d.index : Int)
  name : item.get? "name" = some (.str d.name)
  categories : ∃ js, item.get? "categories" = some (.arr js) ∧
    ∀ j, j ∈ js ↔ ∃ c, d.categories.contains c = true ∧ j = .str c.text
  description : item.get? "description" = d.description.map .str

/-- What is asked of an accepted item besides: no line feed ends the name, and the index is no
float that is too large to convert. -/
structure Convertible (item : Json) : Prop where
  name : ∀ s, item.get? "name" = some (.str s) → s.toList.getLast? ≠ some '\n'
  index : ∀ x i, item.get? "index" = some (.float x) → x.toInt? = some i → i < floatBound

/-- An accepted item is read as the definition that it writes, if at all. -/
theorem read_eq_ok_iff_writes (h : WellFormedItem fields) :
    read fields = .ok d ↔ Writes (.obj fields) d ∧ Convertible (.obj fields) := by
  obtain ⟨j, i, hj, hi, hpos⟩ := h.index
  obtain ⟨s, hs, hform⟩ := h.name
  obtain ⟨js, hjs, hne, -, htexts⟩ := h.categories
  rw [read_eq_ok_iff, readDescription_eq_ok_iff h.description]
  simp only [hj, hs, hjs, Option.some.injEq, exists_eq_left', readIndex_eq_ok_iff hi hpos,
    readName_eq_ok_iff hform, readCategories_eq_ok_iff hne htexts]
  constructor
  · rintro ⟨⟨hindex, hbound⟩, rfl, hcategories, hdescription⟩
    refine ⟨⟨⟨j, hj, hindex ▸ hi⟩, hs, ⟨js, hjs, fun k => ⟨fun hk => ?_, ?_⟩⟩, hdescription⟩,
      ?_, ?_⟩
    · obtain ⟨c, rfl⟩ := htexts k hk
      exact ⟨c, (hcategories c).2 hk, rfl⟩
    · rintro ⟨c, hc, rfl⟩
      exact (hcategories c).1 hc
    · -- The name of a definition is free of line feeds, and it is the name of the item.
      intro t ht
      rw [← Json.str.inj (Option.some.inj (hs.symm.trans ht))]
      exact (Property.isName_iff_of_occursIn hform).1 d.isName_name
    · intro x k hx hk
      obtain rfl : j = .float x := Option.some.inj (hj.symm.trans hx)
      obtain rfl : i = k := Option.some.inj (hi.symm.trans hk)
      exact hbound x rfl
  · rintro ⟨hwrites, hconvertible⟩
    obtain ⟨k, hk, hindex⟩ := hwrites.index
    obtain rfl : j = k := Option.some.inj (hj.symm.trans hk)
    obtain ⟨ks, hks, hmem⟩ := hwrites.categories
    obtain rfl : js = ks := Json.arr.inj (Option.some.inj (hjs.symm.trans hks))
    refine ⟨⟨Option.some.inj (hindex.symm.trans hi), ?_⟩, ?_, fun c => ?_, hwrites.description⟩
    · rintro x rfl
      exact hconvertible.index x i hj hi
    · exact Json.str.inj (Option.some.inj (hwrites.name.symm.trans hs))
    · rw [hmem]
      constructor
      · exact fun hc => ⟨c, hc, rfl⟩
      · rintro ⟨e, he, htext⟩
        rwa [← Category.text_inj.1 (Json.str.inj htext)] at he

/-- Nothing else keeps an accepted item from being read. -/
theorem readable_iff (h : WellFormedItem fields) :
    (∃ d, read fields = .ok d) ↔ Convertible (.obj fields) := by
  constructor
  · rintro ⟨d, hd⟩
    exact ((read_eq_ok_iff_writes h).1 hd).2
  · intro hconvertible
    obtain ⟨j, i, hj, hi, hpos⟩ := h.index
    obtain ⟨s, hs, hform⟩ := h.name
    obtain ⟨js, hjs, hne, -, htexts⟩ := h.categories
    obtain ⟨cs, hcs, -⟩ := readCategories_of_texts hne htexts
    have hname : Property.strictNameForm.occursIn s = true :=
      Property.occursIn_strictNameForm.2
        ((Property.isName_iff_of_occursIn hform).2 (hconvertible.name s hs))
    have hindex : readIndex j = .ok i.toNat := by
      refine (readIndex_eq_ok_iff hi hpos).2 ⟨Int.toNat_of_nonneg hpos, ?_⟩
      rintro x rfl
      exact hconvertible.index x i hj hi
    obtain ⟨text, htext⟩ : ∃ text : Option String,
        fields.lookup "description" = text.map .str := by
      cases hfound : fields.lookup "description" with
      | none => exact ⟨none, rfl⟩
      | some k =>
        obtain ⟨t, rfl⟩ := h.description k hfound
        exact ⟨some t, rfl⟩
    refine ⟨⟨i.toNat, s, cs.1, text, hname, cs.2⟩, read_eq_ok_iff.2 ⟨⟨j, hj, hindex⟩, ?_, ?_, ?_⟩⟩
    · exact ⟨_, hs, (readName_eq_ok_iff hform).2 rfl⟩
    · exact ⟨_, hjs, hcs⟩
    · exact (readDescription_eq_ok_iff h.description).2 htext

end Definition

end Measures
