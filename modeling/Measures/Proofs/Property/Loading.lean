import Mathlib.Data.Set.List
import Measures.Proofs.Property.Definition
import Measures.Proofs.Property.Registry
import Measures.Property.Document

/-!
# Loading documents

All that loading a document can come to: the contract refuses it, an item cannot be read, two
definitions clash, or there is a registry that mirrors the document.
-/

namespace Measures.Registry

open Property (WellFormedItem registrySchema)
open Definition (Writes Convertible)

variable {r : Registry} {ds es : List Definition} {f : Fault} {doc : Json}
  {lists : List (List (String × Json))}

/-! ## Adding definitions -/

/-- No index and no name occurs twice. -/
def Distinct (ds : List Definition) : Prop :=
  (ds.map (·.index)).Nodup ∧ (ds.map (·.name)).Nodup

theorem Holds.distinct (h : r.Holds ds) : Distinct ds := ⟨h.indices, h.names⟩

theorem Distinct.fresh {d : Definition} (h : Distinct (ds ++ d :: es)) : Fresh ds d := by
  simp only [Distinct, List.map_append, List.map_cons, List.nodup_append] at h
  obtain ⟨⟨-, -, hindices⟩, -, -, hnames⟩ := h
  intro e he
  exact ⟨hindices _ (List.mem_map_of_mem he) _ List.mem_cons_self,
    hnames _ (List.mem_map_of_mem he) _ List.mem_cons_self⟩

/-- Adding fails at the first definition that clashes with those before it. -/
theorem Holds.forM_add_error_iff (h : r.Holds ds) :
    ((es.forM add).perform r).1 = .error f ↔ ∃ before d after, es = before ++ d :: after ∧
      Distinct (ds ++ before) ∧ Clash (ds ++ before) d f := by
  induction es generalizing r ds with
  | nil => simp
  | cons e rest ih =>
    simp only [List.forM_eq_forM, List.forM_cons, Action.perform_bind] at ih ⊢
    rcases fresh_or_clash ds e with he | ⟨g, he⟩
    · rw [h.add_of_fresh he]
      simp only [ih (h.extended he), List.append_assoc]
      constructor
      · rintro ⟨before, d, after, rfl, hdistinct, hclash⟩
        exact ⟨e :: before, d, after, rfl, hdistinct, hclash⟩
      · rintro ⟨before, d, after, heq, hdistinct, hclash⟩
        cases before with
        | nil =>
          cases heq
          rw [List.append_nil] at hclash
          exact absurd he hclash.not_fresh
        | cons x before =>
          cases heq
          exact ⟨before, d, after, rfl, hdistinct, hclash⟩
    · rw [h.add_of_clash he]
      constructor
      · rintro ⟨⟩
        exact ⟨[], e, rest, rfl, by simpa using h.distinct, by simpa using he⟩
      · rintro ⟨before, d, after, heq, hdistinct, hclash⟩
        cases before with
        | nil =>
          cases heq
          rw [List.append_nil] at hclash
          have hsame := (h.add_of_clash he).symm.trans (h.add_of_clash hclash)
          exact congrArg Prod.fst hsame
        | cons x before =>
          cases heq
          exact absurd hdistinct.fresh he.not_fresh

theorem ofDefinitions_eq_error_iff :
    ofDefinitions ds = .error f ↔ ∃ before d after, ds = before ++ d :: after ∧
      Distinct before ∧ Clash before d f := by
  rw [ofDefinitions, built, Action.final, map_eq_error, holds_empty.forM_add_error_iff]
  rfl

theorem exists_ofDefinitions_iff : (∃ r, ofDefinitions ds = .ok r) ↔ Distinct ds := by
  constructor
  · rintro ⟨r, hr⟩
    exact (holds_of_ofDefinitions hr).distinct
  · intro hdistinct
    cases hr : ofDefinitions ds with
    | ok r => exact ⟨r, rfl⟩
    | error f =>
      obtain ⟨before, d, after, rfl, -, hclash⟩ := ofDefinitions_eq_error_iff.1 hr
      exact absurd hdistinct.fresh hclash.not_fresh

/-! ## Listing items -/

/-- The contract accepts a document, and the document lists items with these fields. -/
def Lists (doc : Json) (lists : List (List (String × Json))) : Prop :=
  registrySchema.accepts doc = true ∧ doc.get? "properties" = some (.arr (lists.map .obj))

theorem exists_lists (h : registrySchema.accepts doc = true) :
    ∃ lists, Lists doc lists := by
  obtain ⟨members, rfl, hmembers⟩ := Property.registry_accepts_iff.1 (List.isEmpty_iff.1 h)
  obtain ⟨items, hlookup, hitems⟩ := hmembers.items
  obtain ⟨lists, rfl⟩ : items ∈ Set.range (List.map Json.obj) := by
    rw [Set.range_list_map]
    intro item hitem
    obtain ⟨fields, rfl, -⟩ := hitems item hitem
    exact ⟨fields, rfl⟩
  exact ⟨lists, h, hlookup⟩

theorem Lists.wellFormed (h : Lists doc lists) : ∀ fields ∈ lists, WellFormedItem fields := by
  obtain ⟨hdoc, hlookup⟩ := h
  obtain ⟨members, rfl, hmembers⟩ := Property.registry_accepts_iff.1 (List.isEmpty_iff.1 hdoc)
  obtain ⟨items, hitems, hall⟩ := hmembers.items
  obtain rfl : items = lists.map .obj := Json.arr.inj (Option.some.inj (hitems.symm.trans hlookup))
  intro fields hfields
  obtain ⟨_, ⟨⟩, hfields⟩ := hall (.obj fields) (List.mem_map_of_mem hfields)
  exact hfields

/-- Taking an accepted document apart does not fail. -/
theorem Lists.ofDocument_eq (h : Lists doc lists) :
    ofDocument doc = lists.mapM Definition.ofFields >>= ofDefinitions := by
  obtain ⟨hdoc, hlookup⟩ := h
  have hviolation := (Schema.accepts_iff registrySchema doc).1 hdoc
  obtain ⟨members, rfl⟩ : ∃ members, doc = .obj members := by
    cases doc with
    | obj members => exact ⟨members, rfl⟩
    | _ => cases hlookup
  have hvalue : Property.valueAt "properties" (.obj members) = .ok (.arr (lists.map .obj)) := by
    have hfound : members.lookup "properties" = some (.arr (lists.map .obj)) := hlookup
    simp [Property.valueAt, hfound]
  rw [ofDocument, ofDocumentUnder, hviolation]
  simp only [hvalue, ok_bind, Property.elements, ofItems, List.mapM_map]
  rfl

/-! ## Outcomes -/

/-- The contract accepts a document, and these are the issues of the first item that cannot be
read. -/
def Unreadable (doc : Json) (issues : List Issue) : Prop :=
  ∃ before fields after, Lists doc (before ++ fields :: after) ∧
    (∀ earlier ∈ before, ∃ d, Definition.read earlier = .ok d) ∧
    Definition.read fields = .error issues

/-- The contract accepts a document and every item is read, but the first definition that clashes
with those before it does so like this. -/
def Repeating (doc : Json) (f : Fault) : Prop :=
  ∃ lists before d after, Lists doc lists ∧
    List.Forall₂ (fun fields d => Definition.read fields = .ok d) lists (before ++ d :: after) ∧
    Distinct before ∧ Clash before d f

/-- A registry has as many definitions as a document has items, and finds the one that an item
writes under the index of the item. -/
def Mirrors (r : Registry) (doc : Json) : Prop :=
  ∃ items, doc.get? "properties" = some (.arr items) ∧ r.size = items.length ∧
    ∀ item ∈ items, ∃ d, Writes item d ∧ r.get (.int d.index) = .ok d

theorem ofFields_eq_ok {fields : List (String × Json)} {d : Definition} :
    Definition.ofFields fields = .ok d ↔ Definition.read fields = .ok d := mapError_eq_ok

theorem ofFields_eq_error {fields : List (String × Json)} :
    Definition.ofFields fields = .error f ↔
      ∃ issues, Definition.read fields = .error issues ∧ .definition issues = f :=
  mapError_eq_error

theorem ofDocument_of_violation {v : Violation} (h : registrySchema.firstViolation? doc = some v) :
    ofDocument doc = .error (.contract v) := by
  rw [ofDocument, ofDocumentUnder, h]

theorem violation_or_lists (doc : Json) :
    (∃ v, registrySchema.firstViolation? doc = some v) ∨ ∃ lists, Lists doc lists := by
  cases h : registrySchema.firstViolation? doc with
  | some v => exact .inl ⟨v, rfl⟩
  | none => exact .inr (exists_lists ((Schema.accepts_iff _ _).2 h))

/-- What is read, item by item. -/
theorem mapM_ofFields_eq_ok :
    lists.mapM Definition.ofFields = .ok ds ↔
      List.Forall₂ (fun fields d => Definition.read fields = .ok d) lists ds := by
  simp only [mapM_eq_ok, ofFields_eq_ok]

theorem ofDocument_eq_error_iff :
    ofDocument doc = .error f ↔
      (∃ v, f = .contract v ∧ registrySchema.firstViolation? doc = some v) ∨
      (∃ issues, f = .definition issues ∧ Unreadable doc issues) ∨ Repeating doc f := by
  constructor
  · intro hf
    rcases violation_or_lists doc with ⟨v, hv⟩ | ⟨lists, h⟩
    · rw [ofDocument_of_violation hv, Except.error.injEq] at hf
      exact .inl ⟨v, hf.symm, hv⟩
    · rw [h.ofDocument_eq, bind_eq_error, mapM_eq_error] at hf
      rcases hf with ⟨before, fields, after, rfl, hbefore, hfields⟩ | ⟨ds, hds, hf⟩
      · obtain ⟨issues, hissues, rfl⟩ := ofFields_eq_error.1 hfields
        simp only [ofFields_eq_ok] at hbefore
        exact .inr (.inl ⟨issues, rfl, before, fields, after, h, hbefore, hissues⟩)
      · obtain ⟨before, d, after, rfl, hdistinct, hclash⟩ := ofDefinitions_eq_error_iff.1 hf
        have hread := mapM_ofFields_eq_ok.1 hds
        exact .inr (.inr ⟨lists, before, d, after, h, hread, hdistinct, hclash⟩)
  · rintro (⟨v, rfl, hv⟩ | ⟨issues, rfl, before, fields, after, h, hbefore, hissues⟩ |
      ⟨lists, before, d, after, h, hread, hdistinct, hclash⟩)
    · exact ofDocument_of_violation hv
    · rw [h.ofDocument_eq, bind_eq_error, mapM_eq_error]
      refine .inl ⟨before, fields, after, rfl, ?_, ofFields_eq_error.2 ⟨issues, hissues, rfl⟩⟩
      simpa only [ofFields_eq_ok] using hbefore
    · rw [h.ofDocument_eq, mapM_ofFields_eq_ok.2 hread, ok_bind]
      exact ofDefinitions_eq_error_iff.2 ⟨before, d, after, rfl, hdistinct, hclash⟩

theorem mirrors_of_ofDocument (h : ofDocument doc = .ok r) : r.Mirrors doc := by
  rcases violation_or_lists doc with ⟨v, hv⟩ | ⟨lists, hlists⟩
  · rw [ofDocument_of_violation hv] at h
    cases h
  · rw [hlists.ofDocument_eq] at h
    obtain ⟨ds, hds, hr⟩ := bind_eq_ok.1 h
    have hholds := holds_of_ofDefinitions hr
    refine ⟨lists.map .obj, hlists.2, ?_, fun item hitem => ?_⟩
    · rw [size, hholds.indexed, List.length_map, List.length_map]
      exact (mapM_eq_ok.1 hds).length_eq.symm
    · obtain ⟨fields, hfields, rfl⟩ := List.mem_map.1 hitem
      obtain ⟨d, hd, hread⟩ := exists_of_mapM_eq_ok hds hfields
      have hwell := hlists.wellFormed fields hfields
      obtain ⟨hwrites, -⟩ := (Definition.read_eq_ok_iff_writes hwell).1 (ofFields_eq_ok.1 hread)
      exact ⟨d, hwrites, hholds.get_eq_ok_iff.2 ⟨hd, rfl⟩⟩

theorem Repeating.kind (h : Repeating doc f) : f.kind = .badValue := by
  obtain ⟨_, _, _, _, -, -, -, hclash⟩ := h
  exact hclash.kind

theorem ofDocument_contract_iff {v : Violation} :
    ofDocument doc = .error (.contract v) ↔ registrySchema.firstViolation? doc = some v := by
  rw [ofDocument_eq_error_iff]
  constructor
  · rintro (⟨_, ⟨⟩, hv⟩ | ⟨_, ⟨⟩, -⟩ | hrepeats)
    · exact hv
    · cases hrepeats.kind
  · exact fun hv => .inl ⟨v, rfl, hv⟩

theorem ofDocument_definition_iff {issues : List Issue} :
    ofDocument doc = .error (.definition issues) ↔ Unreadable doc issues := by
  rw [ofDocument_eq_error_iff]
  constructor
  · rintro (⟨_, ⟨⟩, -⟩ | ⟨_, ⟨⟩, hissues⟩ | hrepeats)
    · exact hissues
    · cases hrepeats.kind
  · exact fun hissues => .inr (.inl ⟨issues, rfl, hissues⟩)

theorem ofDocument_badValue_iff :
    f.kind = .badValue ∧ ofDocument doc = .error f ↔ Repeating doc f := by
  rw [ofDocument_eq_error_iff]
  constructor
  · rintro ⟨hkind, ⟨v, rfl, -⟩ | ⟨issues, rfl, -⟩ | hrepeats⟩
    · cases hkind
    · cases hkind
    · exact hrepeats
  · exact fun hrepeats => ⟨hrepeats.kind, .inr (.inr hrepeats)⟩

theorem kind_of_ofDocument (h : ofDocument doc = .error f) :
    f.kind = .contract ∨ f.kind = .definition ∨ f.kind = .badValue := by
  rcases ofDocument_eq_error_iff.1 h with ⟨v, rfl, -⟩ | ⟨issues, rfl, -⟩ | hrepeats
  · exact .inl rfl
  · exact .inr (.inl rfl)
  · exact .inr (.inr hrepeats.kind)

theorem exists_ofDocument_iff :
    (∃ r, ofDocument doc = .ok r) ↔ registrySchema.firstViolation? doc = none ∧
      (¬ ∃ issues, Unreadable doc issues) ∧ ¬ ∃ f, Repeating doc f := by
  have hok : (∃ r, ofDocument doc = .ok r) ↔ ∀ f, ofDocument doc ≠ .error f := by
    cases ofDocument doc <;> simp
  simp only [hok, ne_eq, ofDocument_eq_error_iff, not_or, not_exists, not_and]
  constructor
  · intro hnone
    refine ⟨Option.eq_none_iff_forall_ne_some.2 fun v => (hnone _).1 v rfl, fun issues => ?_,
      fun f => (hnone f).2.2⟩
    exact (hnone _).2.1 issues rfl
  · rintro ⟨hnone, hread, hdistinct⟩ f
    refine ⟨fun v _ hv => ?_, fun issues _ => hread issues, hdistinct f⟩
    cases hnone.symm.trans hv

/-- Every document comes to exactly one of four ends. -/
theorem document_outcome (doc : Json) :
    (∀ v, ofDocument doc = .error (.contract v) ↔ registrySchema.firstViolation? doc = some v) ∧
      (∀ issues, ofDocument doc = .error (.definition issues) ↔ Unreadable doc issues) ∧
      (∀ f, f.kind = .badValue ∧ ofDocument doc = .error f ↔ Repeating doc f) ∧
      (∀ f, ofDocument doc = .error f →
        f.kind = .contract ∨ f.kind = .definition ∨ f.kind = .badValue) ∧
      (∀ r, ofDocument doc = .ok r → r.Mirrors doc) ∧
      ((∃ r, ofDocument doc = .ok r) ↔ registrySchema.firstViolation? doc = none ∧
        (¬ ∃ issues, Unreadable doc issues) ∧ ¬ ∃ f, Repeating doc f) := by
  refine ⟨fun v => ofDocument_contract_iff, fun issues => ofDocument_definition_iff,
    fun f => ofDocument_badValue_iff, fun f hf => ?_, fun r hr => ?_, exists_ofDocument_iff⟩
  · exact kind_of_ofDocument hf
  · exact mirrors_of_ofDocument hr

def widthItem : List (String × Json) :=
  [("index", .int 3), ("name", .str "width"), ("categories", .arr [.str "NUMBER"])]

/-- The index is the float 3. -/
def heightItem : List (String × Json) :=
  [("index", .float (.ofBits 0x4008000000000000)), ("name", .str "height"),
    ("categories", .arr [.str "NUMBER"])]

theorem document_outcome_sameIndex :
    ofDocument (Property.documentOf [.obj widthItem, .obj heightItem])
      = .error (.duplicateIndex 3 "width" "height") := by
  let width : Definition := ⟨3, "width", .ofList [.number], none, by decide, by decide⟩
  let height : Definition := ⟨3, "height", .ofList [.number], none, by decide, by decide⟩
  have hdoc : registrySchema.accepts (Property.documentOf [.obj widthItem, .obj heightItem])
      = true := by decide +kernel
  have hwidth : Definition.read widthItem = .ok width := by decide +kernel
  have hheight : Definition.read heightItem = .ok height := by decide +kernel
  have hclash : Clash [width] height (.duplicateIndex 3 "width" "height") :=
    .index List.mem_cons_self rfl
  have hrepeats : Repeating (Property.documentOf [.obj widthItem, .obj heightItem])
      (.duplicateIndex 3 "width" "height") :=
    ⟨[widthItem, heightItem], [width], height, [], ⟨hdoc, rfl⟩, .cons hwidth (.cons hheight .nil),
      by simp [Distinct], hclash⟩
  exact (((document_outcome _).2.2.1 _).2 hrepeats).2

end Measures.Registry
