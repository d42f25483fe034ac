import Mathlib.Data.List.Forall2
import Mathlib.Data.List.Perm.Basic
import Measures.Proofs.Property.Writing

/-!
# The order of items and categories

A document may list its items in any order, and an item its categories: it is loaded all the same,
and the registry gives the same answers.
-/

namespace Measures

/-- What a change keeps of each item holds of all items after it. -/
theorem forall_mem_of_forall₂ {α : Type} {R : α → α → Prop} {P : α → Prop} {as bs : List α}
    (h : List.Forall₂ R as bs) (hstep : ∀ a b, R a b → P a → P b) (hall : ∀ a ∈ as, P a) :
    ∀ b ∈ bs, P b := by
  induction h with
  | nil => exact nofun
  | cons hab _ ih =>
    obtain ⟨ha, hrest⟩ := List.forall_mem_cons.1 hall
    exact List.forall_mem_cons.2 ⟨hstep _ _ hab ha, ih hrest⟩

/-! ## Values in another order -/

namespace Json

variable {R : Json → Json → Prop} {key k : String} {j j' : Json} {m n : String × Json}
  {ms ns : List (String × Json)}

/-- An array comes in another order, after `R` changed its items. -/
inductive Reordered (R : Json → Json → Prop) : Json → Json → Prop
  | same (j : Json) : Reordered R j j
  | arr {js ks ls : List Json} (h : List.Forall₂ R js ks) (hperm : ks.Perm ls) :
    Reordered R (.arr js) (.arr ls)

inductive MemberEdited (key : String) (R : Json → Json → Prop) :
    String × Json → String × Json → Prop
  | kept (m : String × Json) : MemberEdited key R m m
  | edited {j j' : Json} (h : R j j') : MemberEdited key R (key, j) (key, j')

/-- In an object only the value under one key is changed. -/
inductive Edited (key : String) (R : Json → Json → Prop) : Json → Json → Prop
  | same (j : Json) : Edited key R j j
  | obj {ms ns : List (String × Json)} (h : List.Forall₂ (MemberEdited key R) ms ns) :
    Edited key R (.obj ms) (.obj ns)

theorem Reordered.symm (hR : ∀ j k, R j k → R k j) (h : Reordered R j j') : Reordered R j' j := by
  cases h with
  | same => exact .same _
  | @arr js ks ls hjs hperm =>
    -- On the way back the order is changed first, so the two parts have to change places.
    have hls : Relation.Comp (List.Forall₂ R) List.Perm js ls := ⟨ks, hjs, hperm⟩
    rw [List.forall₂_comp_perm_eq_perm_comp_forall₂] at hls
    obtain ⟨ks', hperm', hls⟩ := hls
    exact .arr (hls.flip.imp fun _ _ h => hR _ _ h) hperm'.symm

theorem MemberEdited.symm (hR : ∀ j k, R j k → R k j) (h : MemberEdited key R m n) :
    MemberEdited key R n m := by
  cases h with
  | kept => exact .kept _
  | edited h => exact .edited (hR _ _ h)

theorem Edited.symm (hR : ∀ j k, R j k → R k j) (h : Edited key R j j') : Edited key R j' j := by
  cases h with
  | same => exact .same _
  | obj h => exact .obj (h.flip.imp fun _ _ h => h.symm hR)

theorem Edited.exists_obj (h : Edited key R (.obj ms) j) :
    ∃ ns, j = .obj ns ∧ List.Forall₂ (MemberEdited key R) ms ns := by
  cases h with
  | same => exact ⟨ms, rfl, List.forall₂_same.2 fun m _ => .kept m⟩
  | obj h => exact ⟨_, rfl, h⟩

theorem MemberEdited.key_mem {keys : List String} (h : MemberEdited key R m n) (hm : m.1 ∈ keys) :
    n.1 ∈ keys := by
  cases h with
  | kept => exact hm
  | edited => exact hm

theorem lookup_other (h : List.Forall₂ (MemberEdited key R) ms ns) (hk : k ≠ key) :
    ns.lookup k = ms.lookup k := by
  induction h with
  | nil => rfl
  | cons hm _ ih =>
    cases hm with
    | kept => rw [List.lookup_cons, List.lookup_cons, ih]
    | edited => rw [List.lookup_cons, List.lookup_cons, beq_false_of_ne hk, ih]

theorem lookup_edited (h : List.Forall₂ (MemberEdited key R) ms ns) (hR : ∀ j, R j j)
    (hj : ms.lookup key = some j) : ∃ j', ns.lookup key = some j' ∧ R j j' := by
  induction h with
  | nil => cases hj
  | cons hm _ ih =>
    rw [List.lookup_cons] at hj ⊢
    cases hm with
    | kept m =>
      split at hj
      · exact ⟨j, hj, hR j⟩
      · exact ih hj
    | edited h =>
      rw [beq_self_eq_true] at hj ⊢
      obtain rfl := Option.some.inj hj
      exact ⟨_, rfl, h⟩

end Json

open Json (Edited MemberEdited Reordered)

/-! ## Items -/

namespace Property

open Definition (Writes Convertible)

variable {fields fields' : List (String × Json)} {item item' : Json} {d : Definition}

/-- An item, and the same one with its categories in another order. -/
def ItemReordered : Json → Json → Prop := Edited "categories" (Reordered Eq)

theorem ItemReordered.symm (h : ItemReordered item item') : ItemReordered item' item :=
  Edited.symm (fun _ _ h => h.symm fun _ _ => Eq.symm) h

/-- The fields of an item, and the same fields with the categories in another order. -/
def FieldsReordered : List (String × Json) → List (String × Json) → Prop :=
  List.Forall₂ (MemberEdited "categories" (Reordered Eq))

theorem FieldsReordered.lookup_categories (h : FieldsReordered fields fields') {js : List Json}
    (hjs : fields.lookup "categories" = some (.arr js)) :
    ∃ ks, fields'.lookup "categories" = some (.arr ks) ∧ ks.Perm js := by
  obtain ⟨j', hj', hreordered⟩ := Json.lookup_edited h .same hjs
  cases hreordered with
  | same => exact ⟨js, hj', .refl _⟩
  | @arr _ ks ls hks hperm =>
    rw [List.forall₂_eq_eq_eq] at hks
    exact ⟨ls, hj', hks ▸ hperm.symm⟩

theorem FieldsReordered.lookup_other (h : FieldsReordered fields fields') {k : String}
    (hk : k ≠ "categories") : fields'.lookup k = fields.lookup k :=
  Json.lookup_other h hk

theorem FieldsReordered.itemForm (h : FieldsReordered fields fields') (hform : ItemForm fields) :
    ItemForm fields' := by
  refine ⟨?_, ?_, ?_, ?_, ?_⟩
  · exact forall_mem_of_forall₂ h (fun m n hmn hm => hmn.key_mem hm) hform.known
  · rw [h.lookup_other (by decide)]
    exact hform.index
  · rw [h.lookup_other (by decide)]
    exact hform.name
  · obtain ⟨cs, hcs, hne, hnodup⟩ := hform.categories
    obtain ⟨ks, hks, hperm⟩ := h.lookup_categories hcs
    have htexts := congrFun₂ (List.eq_map_comp_perm fun c : Category => Json.str c.text) ks cs
    obtain ⟨cs', rfl, hcs'⟩ := htexts.mpr hperm
    exact ⟨cs', hks, fun hnil => hne (hnil ▸ hcs').nil_eq.symm, hcs'.nodup_iff.2 hnodup⟩
  · rw [h.lookup_other (by decide)]
    exact hform.description

theorem FieldsReordered.writes (h : FieldsReordered fields fields')
    (hd : Writes (.obj fields) d) : Writes (.obj fields') d := by
  obtain ⟨js, hjs, hmem⟩ := hd.categories
  obtain ⟨ks, hks, hperm⟩ := h.lookup_categories hjs
  refine ⟨?_, ?_, ⟨ks, hks, fun j => hperm.mem_iff.trans (hmem j)⟩, ?_⟩
  · obtain ⟨j, hj, hi⟩ := hd.index
    exact ⟨j, (h.lookup_other (by decide)).trans hj, hi⟩
  · exact (h.lookup_other (by decide)).trans hd.name
  · exact (h.lookup_other (by decide)).trans hd.description

theorem FieldsReordered.convertible (h : FieldsReordered fields fields')
    (hfields : Convertible (.obj fields)) : Convertible (.obj fields') := by
  constructor
  · intro s hs
    exact hfields.name s ((h.lookup_other (by decide)).symm.trans hs)
  · intro x i hx
    exact hfields.index x i ((h.lookup_other (by decide)).symm.trans hx)

theorem ItemReordered.exists_fields (h : ItemReordered (.obj fields) item') :
    ∃ fields', item' = .obj fields' ∧ FieldsReordered fields fields' := h.exists_obj

theorem ItemReordered.form (h : ItemReordered item item')
    (hitem : ∃ fields, item = .obj fields ∧ ItemForm fields) :
    ∃ fields, item' = .obj fields ∧ ItemForm fields := by
  obtain ⟨fields, rfl, hform⟩ := hitem
  obtain ⟨fields', rfl, hfields⟩ := h.exists_fields
  exact ⟨fields', rfl, hfields.itemForm hform⟩

/-- An accepted item is read as the same definition whatever the order of its categories. -/
theorem ItemReordered.ofItem (h : ItemReordered item item')
    (hitem : ∃ fields, item = .obj fields ∧ ItemForm fields) (hd : ofItem item = .ok d) :
    Property.ofItem item' = .ok d := by
  obtain ⟨fields, rfl, hform⟩ := hitem
  obtain ⟨fields', rfl, hfields⟩ := h.exists_fields
  have hread : Definition.read fields = .ok d := Registry.ofFields_eq_ok.1 hd
  rw [Definition.read_eq_ok_iff_writes (wellFormedItem_iff.2 hform)] at hread
  refine Registry.ofFields_eq_ok.2 ?_
  rw [Definition.read_eq_ok_iff_writes (wellFormedItem_iff.2 (hfields.itemForm hform))]
  exact ⟨hfields.writes hread.1, hfields.convertible hread.2⟩

/-! ## Documents -/

variable {members members' : List (String × Json)} {doc doc' : Json}

/-- A document, and one with its items in another order, each of them perhaps with its categories in
another order. -/
def DocumentReordered : Json → Json → Prop := Edited "properties" (Reordered ItemReordered)

theorem DocumentReordered.symm (h : DocumentReordered doc doc') : DocumentReordered doc' doc :=
  Edited.symm (fun _ _ h => h.symm fun _ _ => ItemReordered.symm) h

def MembersReordered : List (String × Json) → List (String × Json) → Prop :=
  List.Forall₂ (MemberEdited "properties" (Reordered ItemReordered))

theorem DocumentReordered.exists_members (h : DocumentReordered (.obj members) doc') :
    ∃ members', doc' = .obj members' ∧ MembersReordered members members' := h.exists_obj

theorem MembersReordered.lookup_properties (h : MembersReordered members members')
    {items : List Json} (hitems : members.lookup "properties" = some (.arr items)) :
    ∃ changed items', members'.lookup "properties" = some (.arr items') ∧
      List.Forall₂ ItemReordered items changed ∧ changed.Perm items' := by
  obtain ⟨j', hj', hreordered⟩ := Json.lookup_edited h .same hitems
  cases hreordered with
  | same => exact ⟨items, items, hj', List.forall₂_same.2 fun item _ => .same item, .refl _⟩
  | @arr _ ks ls hks hperm => exact ⟨ks, ls, hj', hks, hperm⟩

theorem MembersReordered.documentForm (h : MembersReordered members members')
    (hform : DocumentForm members) : DocumentForm members' := by
  refine ⟨?_, ?_, ?_⟩
  · exact forall_mem_of_forall₂ h (fun m n hmn hm => hmn.key_mem hm) hform.known
  · rw [Json.lookup_other h (by decide)]
    exact hform.version
  · obtain ⟨items, hitems, hall⟩ := hform.items
    obtain ⟨changed, items', hitems', hchanged, hperm⟩ := h.lookup_properties hitems
    have hforms := forall_mem_of_forall₂ hchanged (fun item item' => ItemReordered.form) hall
    exact ⟨items', hitems', fun item hitem => hforms item (hperm.mem_iff.2 hitem)⟩

end Property

namespace Registry

open Property

variable {r r' : Registry} {doc doc' : Json} {items changed items' : List Json}
  {ds : List Definition}

/-- The definitions that the items of a document are read as. -/
def ReadAs : List Json → List Definition → Prop :=
  List.Forall₂ fun item d => ofItem item = .ok d

/-- A document is loaded if it has the form that the contract asks for, each item is read and the
definitions are distinct. -/
theorem ofDocument_eq_ok_iff :
    ofDocument doc = .ok r ↔ ∃ members items ds, doc = .obj members ∧ DocumentForm members ∧
      members.lookup "properties" = some (.arr items) ∧ ReadAs items ds ∧
      ofDefinitions ds = .ok r := by
  constructor
  · intro hr
    rcases violation_or_lists doc with ⟨v, hv⟩ | ⟨lists, h⟩
    · cases (ofDocument_of_violation hv).symm.trans hr
    · obtain ⟨hdoc, hitems⟩ := h
      rw [Lists.ofDocument_eq ⟨hdoc, hitems⟩] at hr
      obtain ⟨ds, hds, hr⟩ := bind_eq_ok.1 hr
      obtain ⟨members, rfl, hmembers⟩ := registry_accepts_iff.1 (List.isEmpty_iff.1 hdoc)
      refine ⟨members, _, ds, rfl, wellFormedDocument_iff.1 hmembers, hitems, ?_, hr⟩
      exact List.forall₂_map_left_iff.2 (mapM_eq_ok.1 hds)
  · rintro ⟨members, items, ds, rfl, hmembers, hitems, hds, hr⟩
    have haccepts : registrySchema.accepts (.obj members) = true := by
      rw [Schema.accepts, registry_accepts_iff.2 ⟨_, rfl, wellFormedDocument_iff.2 hmembers⟩,
        List.isEmpty_nil]
    obtain ⟨lists, h⟩ := exists_lists haccepts
    obtain rfl : items = lists.map .obj := Json.arr.inj (Option.some.inj (hitems.symm.trans h.2))
    have hread : lists.mapM Definition.ofFields = .ok ds :=
      mapM_eq_ok.2 (List.forall₂_map_left_iff.1 hds)
    rw [h.ofDocument_eq, hread, ok_bind, hr]

theorem readAs_changed (hchanged : List.Forall₂ ItemReordered items changed)
    (hall : ∀ item ∈ items, ∃ fields, item = .obj fields ∧ ItemForm fields)
    (hds : ReadAs items ds) : ReadAs changed ds := by
  induction hchanged generalizing ds with
  | nil => exact hds
  | cons hitem _ ih =>
    obtain ⟨hform, hforms⟩ := List.forall_mem_cons.1 hall
    cases hds with
    | cons hd hds => exact .cons (hitem.ofItem hform hd) (ih hforms hds)

theorem readAs_perm (hperm : changed.Perm items) (hds : ReadAs changed ds) :
    ∃ es, es.Perm ds ∧ ReadAs items es := by
  have hboth : Relation.Comp (List.Forall₂ fun d item => ofItem item = .ok d) List.Perm ds items :=
    ⟨changed, hds.flip, hperm⟩
  rw [List.forall₂_comp_perm_eq_perm_comp_forall₂] at hboth
  obtain ⟨es, hes, hitems⟩ := hboth
  exact ⟨es, hes.symm, hitems.flip⟩

/-- A loaded document is loaded in any order, and the registries give the same answers. -/
theorem ofDocument_reordered (h : DocumentReordered doc doc') (hr : ofDocument doc = .ok r) :
    ∃ r', ofDocument doc' = .ok r' ∧ r.Same r' := by
  obtain ⟨members, items, ds, rfl, hform, hitems, hds, hr⟩ := ofDocument_eq_ok_iff.1 hr
  obtain ⟨members', rfl, hmembers⟩ := h.exists_members
  obtain ⟨changed, items', hitems', hchanged, hperm⟩ := hmembers.lookup_properties hitems
  obtain ⟨_, hlookup, hall⟩ := hform.items
  obtain rfl := Json.arr.inj (Option.some.inj (hlookup.symm.trans hitems))
  obtain ⟨es, hes, hread⟩ := readAs_perm hperm (readAs_changed hchanged hall hds)
  have hholds := holds_of_ofDefinitions hr
  obtain ⟨r', hr'⟩ := exists_ofDefinitions_iff.2 (hholds.distinct.perm hes)
  refine ⟨r', ofDocument_eq_ok_iff.2 ⟨members', items', es, rfl, ?_, hitems', hread, hr'⟩, ?_⟩
  · exact hmembers.documentForm hform
  · exact hholds.same_of_perm (holds_of_ofDefinitions hr') hes.symm

/-- Whether a document is loaded does not depend on the order of its items and of their categories,
and neither does any answer of the registry. -/
theorem order_independent (h : DocumentReordered doc doc') :
    ((∃ r, ofDocument doc = .ok r) ↔ ∃ r, ofDocument doc' = .ok r) ∧
      ∀ r r', ofDocument doc = .ok r → ofDocument doc' = .ok r' → r.Same r' := by
  refine ⟨⟨?_, ?_⟩, ?_⟩
  · rintro ⟨r, hr⟩
    obtain ⟨r', hr', -⟩ := ofDocument_reordered h hr
    exact ⟨r', hr'⟩
  · rintro ⟨r', hr'⟩
    obtain ⟨r, hr, -⟩ := ofDocument_reordered h.symm hr'
    exact ⟨r, hr⟩
  · intro r r' hr hr'
    obtain ⟨_, hfound, hsame⟩ := ofDocument_reordered h hr
    obtain rfl := Except.ok.inj (hfound.symm.trans hr')
    exact hsame

def columnGap : Definition :=
  ⟨4, "column-gap", .ofList [.length, .percentage], none, by decide, by decide⟩

def azimuth : Definition :=
  ⟨1, "azimuth", .ofList [.angle], some "direction of a sound", by decide, by decide⟩

theorem order_independent_swapped :
    let doc := documentOf [itemJson 4 "column-gap" [.length, .percentage] none,
      itemJson 1 "azimuth" [.angle] (some "direction of a sound")]
    let doc' := documentOf [itemJson 1 "azimuth" [.angle] (some "direction of a sound"),
      itemJson 4 "column-gap" [.percentage, .length] none]
    DocumentReordered doc doc' ∧
      ∃ r r', ofDocument doc = .ok r ∧ ofDocument doc' = .ok r' ∧ r.Same r' := by
  intro doc doc'
  have hcategories : Reordered Eq (.arr [.str "LENGTH", .str "PERCENTAGE"])
      (.arr [.str "PERCENTAGE", .str "LENGTH"]) :=
    .arr (List.forall₂_same.2 fun _ _ => rfl) (.swap _ _ _)
  have hgap : ItemReordered (itemJson 4 "column-gap" [.length, .percentage] none)
      (itemJson 4 "column-gap" [.percentage, .length] none) :=
    .obj (.cons (.kept _) (.cons (.kept _) (.cons (.edited hcategories) .nil)))
  have hitems : Reordered ItemReordered _ _ :=
    .arr (.cons hgap (.cons (.same (itemJson 1 "azimuth" [.angle] (some "direction of a sound"))) .nil))
      (.swap _ _ _)
  have hdoc : DocumentReordered doc doc' := .obj (.cons (.kept _) (.cons (.edited hitems) .nil))
  have hwritten : List.Forall₂ Definition.IsItem [columnGap, azimuth]
      [itemJson 4 "column-gap" [.length, .percentage] none,
        itemJson 1 "azimuth" [.angle] (some "direction of a sound")] :=
    .cons (isItem_toJson columnGap) (.cons (isItem_toJson azimuth) .nil)
  obtain ⟨hiff, hsame⟩ := order_independent hdoc
  obtain ⟨r, hr⟩ : ∃ r, ofDocument doc = .ok r :=
    ⟨_, (ofDocument_documentOf hwritten).trans rfl⟩
  obtain ⟨r', hr'⟩ := hiff.1 ⟨r, hr⟩
  exact ⟨hdoc, r, r', hr, hr', hsame r r' hr hr'⟩

end Registry

end Measures
