import Mathlib.Data.Set.List
import Measures.Catalog.Loader
import Measures.Proofs.Json.Distinct
import Measures.Proofs.Property.Loading
import Measures.Proofs.Schema.Path

/-!
# What the contract says of a document

The contract reports nothing exactly for the documents described here, and what it reports is at
parts of the document, item by item.
-/

namespace Measures.Property

variable {doc : Json} {fields members : List (String × Json)} {s : String} {text a b : List Char}

/-! ## Versions -/

/-- A text is `w`, with at most one line feed after it. -/
def IsLine (s : String) (w : List Char) : Prop := s.toList = w ∨ s.toList = w ++ ['\n']

theorem isLine_iff {w : List Char} :
    IsLine s w ↔ ∃ rest, s.toList = w ++ rest ∧ (rest = [] ∨ rest = ['\n']) := by
  constructor
  · rintro (h | h)
    · exact ⟨[], by rw [h, List.append_nil], .inl rfl⟩
    · exact ⟨['\n'], h, .inr rfl⟩
  · rintro ⟨rest, h, rfl | rfl⟩
    · exact .inl (by rw [h, List.append_nil])
    · exact .inr h

def isDigit (c : Char) : Bool := '0' ≤ c && c ≤ '9'

theorem reaches_digits :
    (Pattern.many 1 none (anyOf [('0', '9')])).Reaches text a b ↔
      ∃ w, a = w ++ b ∧ 1 ≤ w.length ∧ ∀ c ∈ w, isDigit c = true := by
  have hcontains (c : Char) : CharSet.contains ⟨[.range '0' '9'], false⟩ c = isDigit c := by
    simp [CharSet.contains, CharClass.contains, isDigit]
  simp only [← hcontains]
  exact Pattern.reaches_many_char_iff

theorem occursIn_versionForm :
    versionForm.occursIn s = true ↔ ∃ w, IsLine s w ∧ w ≠ [] ∧ ∀ c ∈ w, isDigit c = true := by
  rw [Pattern.occursIn_iff]
  simp only [versionForm, Pattern.reaches_seq, reaches_digits, isLine_iff]
  constructor
  · rintro ⟨_, -, b, _, ⟨rfl, rfl⟩, _, ⟨w, hs, hlength, hw⟩, rfl, hend⟩
    exact ⟨w, ⟨_, hs, hend⟩, List.ne_nil_of_length_pos hlength, hw⟩
  · rintro ⟨w, ⟨rest, hs, hend⟩, hne, hw⟩
    exact ⟨s.toList, List.suffix_rfl, rest, _, ⟨rfl, rfl⟩, _,
      ⟨w, hs, List.length_pos_iff.2 hne, hw⟩, rfl, hend⟩

/-! ## Documents in full -/

/-- An item has an index, a name and categories, perhaps a description, and nothing else. -/
structure ItemForm (fields : List (String × Json)) : Prop where
  known : ∀ m ∈ fields, m.1 ∈ ["index", "name", "categories", "description"]
  index : ∃ j i, fields.lookup "index" = some j ∧ j.wholeNumber? = some i ∧ 0 ≤ i
  name : ∃ s w, fields.lookup "name" = some (.str s) ∧ IsLine s w ∧ isName w = true
  categories : ∃ cs : List Category,
    fields.lookup "categories" = some (.arr (cs.map fun c => .str c.text)) ∧ cs ≠ [] ∧ cs.Nodup
  description : ∀ j, fields.lookup "description" = some j → ∃ s, j = .str s

/-- A document has a version of digits and a list of items, and nothing else. -/
structure DocumentForm (members : List (String × Json)) : Prop where
  known : ∀ m ∈ members, m.1 ∈ ["schema_version", "properties"]
  version : ∃ s w, members.lookup "schema_version" = some (.str s) ∧ IsLine s w ∧ w ≠ [] ∧
    ∀ c ∈ w, isDigit c = true
  items : ∃ items, members.lookup "properties" = some (.arr items) ∧
    ∀ item ∈ items, ∃ fields, item = .obj fields ∧ ItemForm fields

theorem distinct_categories (cs : List Category) :
    Json.distinct (cs.map fun c => .str c.text) = true ↔ cs.Nodup := by
  have htexts : (cs.map fun c => Json.str c.text) = (cs.map Category.text).map .str := by
    rw [List.map_map]
    rfl
  have hinj : Function.Injective Category.text := fun _ _ => Category.text_inj.1
  rw [htexts, Json.distinct_texts, List.nodup_map_iff hinj]

theorem categories_iff {js : List Json} :
    (js ≠ [] ∧ Json.distinct js = true ∧ ∀ k ∈ js, ∃ c : Category, k = .str c.text) ↔
      ∃ cs : List Category, js = cs.map (fun c => .str c.text) ∧ cs ≠ [] ∧ cs.Nodup := by
  constructor
  · rintro ⟨hne, hdistinct, htexts⟩
    obtain ⟨cs, rfl⟩ : js ∈ Set.range (List.map fun c : Category => Json.str c.text) := by
      rw [Set.range_list_map]
      intro k hk
      obtain ⟨c, rfl⟩ := htexts k hk
      exact ⟨c, rfl⟩
    exact ⟨cs, rfl, fun h => hne (by rw [h, List.map_nil]), (distinct_categories cs).1 hdistinct⟩
  · rintro ⟨cs, rfl, hne, hnodup⟩
    refine ⟨fun h => hne (List.map_eq_nil_iff.1 h), (distinct_categories cs).2 hnodup, ?_⟩
    intro k hk
    obtain ⟨c, -, rfl⟩ := List.mem_map.1 hk
    exact ⟨c, rfl⟩

theorem wellFormedItem_iff : WellFormedItem fields ↔ ItemForm fields := by
  constructor
  · rintro ⟨hknown, hindex, ⟨s, hs, hform⟩, ⟨js, hjs, hall⟩, hdescription⟩
    obtain ⟨w, rest, hw, hname, hend⟩ := occursIn_nameForm.1 hform
    obtain ⟨cs, rfl, hcs⟩ := categories_iff.1 hall
    exact ⟨hknown, hindex, ⟨s, w, hs, isLine_iff.2 ⟨rest, hw, hend⟩, hname⟩, ⟨cs, hjs, hcs⟩,
      hdescription⟩
  · rintro ⟨hknown, hindex, ⟨s, w, hs, hline, hname⟩, ⟨cs, hlookup, hcs⟩, hdescription⟩
    obtain ⟨rest, hw, hend⟩ := isLine_iff.1 hline
    exact ⟨hknown, hindex, ⟨s, hs, occursIn_nameForm.2 ⟨w, rest, hw, hname, hend⟩⟩,
      ⟨_, hlookup, categories_iff.2 ⟨cs, rfl, hcs⟩⟩, hdescription⟩

theorem wellFormedDocument_iff : WellFormedDocument members ↔ DocumentForm members := by
  constructor
  · rintro ⟨hknown, ⟨s, hs, hform⟩, items, hlookup, hitems⟩
    obtain ⟨w, hline, hw⟩ := occursIn_versionForm.1 hform
    simp only [wellFormedItem_iff] at hitems
    exact ⟨hknown, ⟨s, w, hs, hline, hw⟩, items, hlookup, hitems⟩
  · rintro ⟨hknown, ⟨s, w, hs, hline, hw⟩, items, hlookup, hitems⟩
    simp only [← wellFormedItem_iff] at hitems
    exact ⟨hknown, ⟨s, hs, occursIn_versionForm.2 ⟨w, hline, hw⟩⟩, items, hlookup, hitems⟩

/-! ## What is reported -/

theorem selfContained_text (p : Pattern) : (textSchema p).SelfContained :=
  Schema.selfContained_all (List.forall_mem_cons.2 ⟨Schema.selfContained_type _,
    List.forall_mem_singleton.2 (Schema.selfContained_pattern p)⟩)

theorem selfContained_categories : categoriesSchema.SelfContained := by
  have hcategory : (Schema.all [.enum (Category.all.map fun c => .str c.text)]).SelfContained :=
    Schema.selfContained_all (List.forall_mem_singleton.2 (Schema.selfContained_enum _))
  refine Schema.selfContained_all ?_
  simp only [List.forall_mem_cons, List.not_mem_nil, false_imp_iff, implies_true, and_true]
  exact ⟨Schema.selfContained_type _, Schema.selfContained_minItems _,
    Schema.selfContained_uniqueItems _, Schema.selfContained_items nofun hcategory⟩

theorem selfContained_object {names needed : List String} {parts : List (String × Schema)}
    (h : ∀ part ∈ parts, part.2.SelfContained) :
    (Schema.all [.type [.object], .additionalProperties names [] .never, .required needed,
      .properties parts]).SelfContained := by
  refine Schema.selfContained_all ?_
  simp only [List.forall_mem_cons, List.not_mem_nil, false_imp_iff, implies_true, and_true]
  exact ⟨Schema.selfContained_type _, Schema.selfContained_additionalProperties _ _,
    Schema.selfContained_required _, Schema.selfContained_properties h⟩

theorem selfContained_item : itemSchema.SelfContained := by
  have hindex : (Schema.all [.type [.integer], .minimum (.int 0)]).SelfContained :=
    Schema.selfContained_all (List.forall_mem_cons.2 ⟨Schema.selfContained_type _,
      List.forall_mem_singleton.2 (Schema.selfContained_minimum _)⟩)
  have hdescription : (Schema.all [.type [.string]]).SelfContained :=
    Schema.selfContained_all (List.forall_mem_singleton.2 (Schema.selfContained_type _))
  have hfields : ∀ part ∈ itemFields, part.2.SelfContained := by
    simp only [itemFields, List.forall_mem_cons, List.not_mem_nil, false_imp_iff, implies_true,
      and_true]
    exact ⟨hindex, selfContained_text _, selfContained_categories, hdescription⟩
  exact selfContained_object hfields

theorem selfContained_registry : registrySchema.SelfContained := by
  have hitems : (Schema.all [.type [.array], .items 0 itemSchema]).SelfContained :=
    Schema.selfContained_all (List.forall_mem_cons.2 ⟨Schema.selfContained_type _,
      List.forall_mem_singleton.2 (Schema.selfContained_items nofun selfContained_item)⟩)
  have hfields : ∀ part ∈ registryFields, part.2.SelfContained := by
    simp only [registryFields, List.forall_mem_cons, List.not_mem_nil, false_imp_iff,
      implies_true, and_true]
    exact ⟨selfContained_text _, hitems⟩
  exact selfContained_object hfields

/-- What is reported of an item, with its place in the document. -/
def itemViolations (item : Json) (i : Nat) : List Violation :=
  (itemSchema.check item).map fun v => (v.under (.index i)).under (.key "properties")

/-- An object is blamed as a whole for its keys; all else is reported of the values. -/
theorem underKey_object {names needed : List String} {parts : List (String × Schema)}
    {part : Schema} {key : String} {j : Json} (hpart : (key, part) ∈ parts)
    (hparts : (parts.map (·.1)).Nodup) (hj : fields.lookup key = some j) :
    underKey key ((Schema.all [.type [.object], .additionalProperties names [] .never,
      .required needed, .properties parts]).check (.obj fields))
        = (part.check j).map (.under (.key key)) := by
  have hroot : ∀ v ∈ (Schema.additionalProperties names [] .never).check (.obj fields),
      v.path = [] := fun v => Schema.path_of_mem_demand
  have hmissing : ∀ v ∈ (Schema.required needed).check (.obj fields), v.path = [] :=
    fun v => Schema.path_of_mem_missing
  have hproperties : underKey key ((Schema.properties parts).check (.obj fields))
      = (part.check j).map (.under (.key key)) := Schema.underKey_properties hpart hparts hj
  have hall : (Schema.all [.type [.object], .additionalProperties names [] .never,
      .required needed, .properties parts]).check (.obj fields)
        = (Schema.additionalProperties names [] .never).check (.obj fields)
          ++ ((Schema.required needed).check (.obj fields)
            ++ ((Schema.properties parts).check (.obj fields) ++ [])) := rfl
  rw [hall, underKey_append, underKey_append, underKey_here hroot, underKey_here hmissing,
    List.append_nil, hproperties]
  rfl

theorem underKey_registrySchema {items : List Json}
    (h : doc.get? "properties" = some (.arr items)) :
    underKey "properties" (registrySchema.check doc)
      = items.zipIdx.flatMap fun (item, i) => itemViolations item i := by
  cases doc with
  | obj members =>
    have hitems : (Schema.all [.type [.array], .items 0 itemSchema]).check (.arr items)
        = Schema.checkItems itemSchema.check 0 items ++ [] := rfl
    have hpart : ("properties", Schema.all [.type [.array], .items 0 itemSchema])
        ∈ registryFields := List.mem_cons_of_mem _ List.mem_cons_self
    have hunder : underKey "properties" (registrySchema.check (.obj members)) = _ :=
      underKey_object hpart (by decide) h
    rw [hunder, hitems, List.append_nil, Schema.checkItems_eq_flatMap, List.map_flatMap]
    simp only [List.map_map]
    rfl
  | _ => cases h

/-- The contract reports nothing exactly for the documents of the form described, whether it is
asked for all violations, for a verdict or for the first one. All that it reports is at parts of the
document, and of a list of items it reports what each one breaks, in the order of the list. -/
theorem contract_verdict (doc : Json) :
    let vs := SchemaDocument.contract.check doc
    (vs = [] ↔ ∃ members, doc = .obj members ∧ DocumentForm members) ∧
      vs = registrySchema.check doc ∧
      registrySchema.accepts doc = vs.isEmpty ∧
      registrySchema.firstViolation? doc = vs.head? ∧
      (∀ v, Registry.ofDocument doc = .error (.contract v) ↔ vs.head? = some v) ∧
      (∀ v ∈ vs, ∃ j, doc.at? v.path = some j) ∧
      ∀ items, doc.get? "properties" = some (.arr items) →
        underKey "properties" vs = items.zipIdx.flatMap fun (item, i) => itemViolations item i := by
  intro vs
  have hvs : vs = registrySchema.check doc := selfContained_registry.closed _ doc
  have hform : vs = [] ↔ ∃ members, doc = .obj members ∧ DocumentForm members := by
    simp only [hvs, registry_accepts_iff, wellFormedDocument_iff]
  refine ⟨hform, hvs, ?_, ?_, fun v => ?_, ?_, fun items hitems => ?_⟩
  · rw [hvs, Schema.accepts]
  · rw [hvs, Schema.firstViolation?]
  · rw [hvs, Registry.ofDocument_contract_iff, Schema.firstViolation?]
  · rw [hvs]
    exact selfContained_registry.allIn doc
  · rw [hvs]
    exact underKey_registrySchema hitems

end Measures.Property
