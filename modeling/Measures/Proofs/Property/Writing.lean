import Measures.Proofs.Property.Lookup
import Measures.Proofs.Property.Reachable
import Measures.Proofs.Property.Verdict

/-!
# Writing registries as documents

Whatever a definition was read from, it can be written as an item that the contract accepts and
that is read as the same definition. So every registry has documents that load it again.
-/

namespace Measures

/-- An item that writes a definition: the categories may come in any order, and a description is
there only if there is one. -/
inductive Definition.IsItem (d : Definition) : Json → Prop
  | intro {cs : List Category} (h : cs.Perm d.categories.toList) :
    IsItem d (Property.itemJson d.index d.name cs d.description)

/-! ## Items -/

namespace Property

variable {d : Definition} {item : Json} {cs : List Category}

theorem get?_description (d : Definition) (cs : List Category) :
    (itemJson d.index d.name cs d.description).get? "description" = d.description.map .str := by
  unfold itemJson
  cases d.description <;> rfl

theorem nodup_of_perm (h : cs.Perm d.categories.toList) : cs.Nodup := by
  rw [h.nodup_iff, ← d.categories.canonical]
  exact List.Nodup.filter _ (by decide)

theorem ne_nil_of_perm (h : cs.Perm d.categories.toList) : cs ≠ [] := by
  intro hnil
  have hempty : d.categories.toList = [] := by
    rw [hnil] at h
    exact h.nil_eq.symm
  have hne := d.categories_ne
  rw [CategorySet.isEmpty, hempty] at hne
  cases hne

theorem itemForm_of_isItem (h : d.IsItem item) :
    ∃ fields, item = .obj fields ∧ ItemForm fields := by
  obtain @⟨cs, hcs⟩ := h
  refine ⟨_, rfl, ⟨?_, ?_, ?_, ?_, ?_⟩⟩
  · cases d.description <;> simp
  · exact ⟨.int d.index, d.index, rfl, rfl, Int.natCast_nonneg _⟩
  · exact ⟨d.name, d.name.toList, rfl, .inl rfl, d.isName_name⟩
  · exact ⟨_, rfl, ne_nil_of_perm hcs, nodup_of_perm hcs⟩
  · intro j hj
    have hdescription : d.description.map Json.str = some j :=
      (get?_description d cs).symm.trans hj
    obtain ⟨s, -, rfl⟩ := Option.map_eq_some_iff.1 hdescription
    exact ⟨s, rfl⟩

theorem writes_of_isItem (h : d.IsItem item) : Definition.Writes item d := by
  obtain @⟨cs, hcs⟩ := h
  refine ⟨⟨.int d.index, rfl, rfl⟩, rfl, ⟨_, rfl, fun j => ?_⟩, get?_description d _⟩
  simp only [List.mem_map, hcs.mem_iff, CategorySet.contains, List.contains_iff_mem]
  exact exists_congr fun c => and_congr_right fun _ => eq_comm

theorem convertible_of_isItem (h : d.IsItem item) : Definition.Convertible item := by
  obtain @⟨cs, hcs⟩ := h
  constructor
  · intro s hs hlast
    obtain rfl : d.name = s := Json.str.inj (Option.some.inj hs)
    exact lineFeed_not_mem_name d.isName_name (List.mem_of_getLast? hlast)
  · intro x i hx
    cases hx

theorem accepts_of_isItem (h : d.IsItem item) : itemSchema.accepts item = true := by
  obtain ⟨fields, hitem, hform⟩ := itemForm_of_isItem h
  have hcheck : itemSchema.check item = [] :=
    item_accepts_iff.2 ⟨fields, hitem, wellFormedItem_iff.2 hform⟩
  rw [Schema.accepts, hcheck, List.isEmpty_nil]

theorem ofFields_of_isItem {fields : List (String × Json)} (h : d.IsItem (.obj fields)) :
    Definition.ofFields fields = .ok d := by
  obtain ⟨_, ⟨⟩, hform⟩ := itemForm_of_isItem h
  rw [Registry.ofFields_eq_ok, Definition.read_eq_ok_iff_writes (wellFormedItem_iff.2 hform)]
  exact ⟨writes_of_isItem h, convertible_of_isItem h⟩

theorem ofItem_of_isItem (h : d.IsItem item) : ofItem item = .ok d := by
  obtain ⟨fields, rfl, -⟩ := itemForm_of_isItem h
  exact ofFields_of_isItem h

end Property

/-! ## Registries -/

namespace Registry

open Property (registrySchema documentOf)

variable {r : Registry} {ds es : List Definition} {items : List Json}

theorem accepts_documentOf (hitems : List.Forall₂ Definition.IsItem es items) :
    registrySchema.accepts (documentOf items) = true := by
  have hall : ∀ item ∈ items, ∃ fields, item = .obj fields ∧ Property.ItemForm fields := by
    induction hitems with
    | nil => exact nofun
    | cons h _ ih => exact List.forall_mem_cons.2 ⟨Property.itemForm_of_isItem h, ih⟩
  have hversion : Property.IsLine "1" ['1'] := .inl rfl
  have hdigits : ∀ c ∈ ['1'], Property.isDigit c = true := List.forall_mem_singleton.2 rfl
  have hform : Property.DocumentForm
      [("schema_version", .str Property.schemaVersion), ("properties", .arr items)] :=
    ⟨by simp, ⟨_, _, rfl, hversion, List.cons_ne_nil _ _, hdigits⟩, items, rfl, hall⟩
  have hcheck : registrySchema.check (documentOf items) = [] :=
    Property.registry_accepts_iff.2 ⟨_, rfl, Property.wellFormedDocument_iff.2 hform⟩
  rw [Schema.accepts, hcheck, List.isEmpty_nil]

theorem ofDocument_documentOf (hitems : List.Forall₂ Definition.IsItem es items) :
    ofDocument (documentOf items) = ofDefinitions es := by
  obtain ⟨lists, h⟩ := exists_lists (accepts_documentOf hitems)
  obtain rfl : items = lists.map .obj := Json.arr.inj (Option.some.inj h.2)
  have hread : lists.mapM Definition.ofFields = .ok es := by
    rw [mapM_eq_ok]
    rw [List.forall₂_map_right_iff] at hitems
    exact hitems.flip.imp fun fields d hd => Property.ofFields_of_isItem hd
  rw [h.ofDocument_eq, hread, ok_bind]

theorem Distinct.perm (h : Distinct ds) (hperm : es.Perm ds) : Distinct es :=
  ⟨(hperm.map _).nodup_iff.2 h.1, (hperm.map _).nodup_iff.2 h.2⟩

theorem Reachable.documented (hr : r.Reachable) (hes : es.Perm r.toList)
    (hitems : List.Forall₂ Definition.IsItem es items) :
    ∃ r', ofDocument (documentOf items) = .ok r' ∧ r'.Same r := by
  obtain ⟨ds, hds⟩ := hr.holds
  have hperm : es.Perm ds := hes.trans hds.toList_perm
  obtain ⟨r', hr'⟩ := exists_ofDefinitions_iff.2 (hds.distinct.perm hperm)
  refine ⟨r', (ofDocument_documentOf hitems).trans hr', ?_⟩
  exact (holds_of_ofDefinitions hr').same_of_perm hds hperm

theorem isItem_toJson (d : Definition) : d.IsItem d.toJson := .intro (.refl _)

theorem Reachable.ofDocument_toDocument (hr : r.Reachable) :
    ∃ r', ofDocument r.toDocument = .ok r' ∧ r'.Same r := by
  refine hr.documented (.refl _) ?_
  rw [List.forall₂_map_right_iff]
  exact List.forall₂_same.2 fun d _ => isItem_toJson d

/-- A definition is read again from any item that writes it, and a registry from any document that
writes its definitions in any order. -/
theorem read_again :
    (∀ (d : Definition) item, d.IsItem item →
      Property.itemSchema.accepts item = true ∧ Property.ofItem item = .ok d) ∧
    ∀ r : Registry, r.Reachable → ∀ es items, es.Perm r.toList →
      List.Forall₂ Definition.IsItem es items →
        registrySchema.accepts (documentOf items) = true ∧
          ∃ r', ofDocument (documentOf items) = .ok r' ∧ r'.Same r :=
  ⟨fun _ _ h => ⟨Property.accepts_of_isItem h, Property.ofItem_of_isItem h⟩,
    fun _ hr _ _ hes hitems => ⟨accepts_documentOf hitems, hr.documented hes hitems⟩⟩

/-- The index is the text of a number, and a category is given twice. -/
def laxFields : List (String × Json) := [("index", .str " +00_7.0 "), ("name", .str "line-height"),
  ("categories", .arr [.str "NUMBER", .str "LENGTH", .str "NUMBER"]), ("description", .null)]

theorem read_again_laxFields :
    ∃ d, Definition.ofFields laxFields = .ok d ∧ d.index = 7 ∧
      let item := Property.itemJson 7 "line-height" [.number, .length] none
      Property.itemSchema.accepts item = true ∧ Property.ofItem item = .ok d ∧
        ∃ r', ofDocument (documentOf [item]) = .ok r' ∧ r'.Same (empty.extended d) := by
  let d : Definition := ⟨7, "line-height", .ofList [.number, .length], none, by decide, by decide⟩
  have hread : Definition.ofFields laxFields = .ok d := by
    rw [ofFields_eq_ok]
    decide +kernel
  have hitem : d.IsItem (Property.itemJson 7 "line-height" [.number, .length] none) :=
    .intro (.swap _ _ _)
  have hr : (empty.extended d).Reachable := .made (show ofDefinitions [d] = .ok _ from rfl)
  obtain ⟨haccepts, hofItem⟩ := read_again.1 d _ hitem
  obtain ⟨-, r', hr', hsame⟩ := read_again.2 _ hr [d] _ (.refl _) (.cons hitem .nil)
  exact ⟨d, hread, rfl, haccepts, hofItem, r', hr', hsame⟩

end Registry

end Measures
