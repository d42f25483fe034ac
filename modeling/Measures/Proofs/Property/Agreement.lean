import Measures.Proofs.Property.Loading

/-!
# Where the contract and the reader differ

Of documents without repeats the contract accepts more than can be loaded: a name may end in a line
feed, and an index may be a float of any size.
-/

namespace Measures.Registry

open Property (registrySchema)
open Definition (Writes Convertible)

variable {doc : Json} {items : List Json} {lists : List (List (String × Json))}
  {ds : List Definition}

/-- The index of an item as an integer. -/
def itemIndex? (item : Json) : Option Int := (item.get? "index").bind Json.wholeNumber?

theorem Lists.writes (h : Lists doc lists)
    (hread : List.Forall₂ (fun fields d => Definition.read fields = .ok d) lists ds) :
    List.Forall₂ Writes (lists.map .obj) ds := by
  rw [List.forall₂_map_left_iff]
  refine ((List.forall₂_and_left _ _).2 ⟨h.wellFormed, hread⟩).imp fun fields d ⟨hwell, hd⟩ => ?_
  exact ((Definition.read_eq_ok_iff_writes hwell).1 hd).1

/-- Definitions are distinct if the items that write them are. -/
theorem distinct_of_writes (h : List.Forall₂ Writes items ds)
    (hindices : (items.map itemIndex?).Nodup) (hnames : (items.map (·.get? "name")).Nodup) :
    Distinct ds := by
  have hindex : items.map itemIndex? = (ds.map (·.index)).map fun n : Nat => some (n : Int) := by
    rw [List.map_map, ← List.forall₂_eq_eq_eq, List.forall₂_map_left_iff,
      List.forall₂_map_right_iff]
    refine h.imp fun item d hd => ?_
    obtain ⟨j, hj, hi⟩ := hd.index
    rw [itemIndex?, hj]
    exact hi
  have hname : items.map (·.get? "name") = (ds.map (·.name)).map fun s => some (.str s) := by
    rw [List.map_map, ← List.forall₂_eq_eq_eq, List.forall₂_map_left_iff,
      List.forall₂_map_right_iff]
    exact h.imp fun item d hd => hd.name
  rw [hindex] at hindices
  rw [hname] at hnames
  exact ⟨hindices.of_map _, hnames.of_map _⟩

/-- A document that the contract accepts and in which no index and no name occurs twice is loaded
if and only if no name ends in a line feed and no index is a float that is too large. -/
theorem loads_iff_convertible (hdoc : registrySchema.accepts doc = true)
    (hitems : doc.get? "properties" = some (.arr items))
    (hindices : (items.map itemIndex?).Nodup) (hnames : (items.map (·.get? "name")).Nodup) :
    (∃ r, ofDocument doc = .ok r) ↔ ∀ item ∈ items, Convertible item := by
  obtain ⟨lists, h⟩ := exists_lists hdoc
  obtain rfl : items = lists.map .obj := Json.arr.inj (Option.some.inj (hitems.symm.trans h.2))
  rw [h.ofDocument_eq]
  constructor
  · rintro ⟨r, hr⟩ item hitem
    obtain ⟨ds, hds, -⟩ := bind_eq_ok.1 hr
    obtain ⟨fields, hfields, rfl⟩ := List.mem_map.1 hitem
    obtain ⟨d, -, hread⟩ := exists_of_mapM_eq_ok hds hfields
    exact (Definition.readable_iff (h.wellFormed fields hfields)).1 ⟨d, ofFields_eq_ok.1 hread⟩
  · intro hall
    cases hds : lists.mapM Definition.ofFields with
    | error f =>
      obtain ⟨before, fields, after, heq, -, hfields⟩ := mapM_eq_error.1 hds
      have hmem : fields ∈ lists := heq ▸ List.mem_append_right _ List.mem_cons_self
      have hconvertible := hall (.obj fields) (List.mem_map_of_mem hmem)
      obtain ⟨d, hd⟩ := (Definition.readable_iff (h.wellFormed fields hmem)).2 hconvertible
      cases (ofFields_eq_ok.2 hd).symm.trans hfields
    | ok ds =>
      have hwrites := h.writes (mapM_ofFields_eq_ok.1 hds)
      exact exists_ofDefinitions_iff.2 (distinct_of_writes hwrites hindices hnames)

/-- A whole float, and an integer beyond all floats that can be converted. -/
def wideItems : List Json := [
  .obj [("index", .float (.ofBits 0x4008000000000000)), ("name", .str "width"),
    ("categories", .arr [.str "NUMBER"])],
  .obj [("index", .int (Definition.floatBound + 1)), ("name", .str "height"),
    ("categories", .arr [.str "LENGTH", .str "PERCENTAGE"])]]

theorem convertible_wideItems : ∀ item ∈ wideItems, Convertible item := by
  refine List.forall_mem_cons.2 ⟨⟨?_, ?_⟩, List.forall_mem_singleton.2 ⟨?_, ?_⟩⟩
  · intro s hs
    obtain rfl : "width" = s := Json.str.inj (Option.some.inj hs)
    decide
  · intro x i hx hi
    obtain rfl : .ofBits 0x4008000000000000 = x := Json.float.inj (Option.some.inj hx)
    have hthree : (Binary64.ofBits 0x4008000000000000).toInt? = some 3 := by decide +kernel
    rw [← Option.some.inj (hthree.symm.trans hi)]
    decide
  · intro s hs
    obtain rfl : "height" = s := Json.str.inj (Option.some.inj hs)
    decide
  · intro x i hx
    cases hx

theorem loads_wideItems :
    registrySchema.accepts (Property.documentOf wideItems) = true ∧
      (wideItems.map itemIndex?).Nodup ∧ (wideItems.map (·.get? "name")).Nodup ∧
      ∃ r, ofDocument (Property.documentOf wideItems) = .ok r := by
  have hdoc : registrySchema.accepts (Property.documentOf wideItems) = true := by decide +kernel
  have hindices : (wideItems.map itemIndex?).Nodup := by decide +kernel
  have hnames : (wideItems.map (·.get? "name")).Nodup := by
    simp [wideItems, Json.get?, List.lookup_cons]
  exact ⟨hdoc, hindices, hnames,
    (loads_iff_convertible hdoc rfl hindices hnames).2 convertible_wideItems⟩

def lineFeedItem : List (String × Json) :=
  [("index", .int 0), ("name", .str "a\n"), ("categories", .arr [.str "NUMBER"])]

/-- The index is the float 10¹⁹. -/
def largeFloatItem : List (String × Json) :=
  [("index", .float (.ofBits 0x43e158e460913d00)), ("name", .str "a"),
    ("categories", .arr [.str "NUMBER"])]

theorem not_loads_accepted :
    registrySchema.accepts (Property.documentOf [.obj lineFeedItem]) = true ∧
      ofDocument (Property.documentOf [.obj lineFeedItem])
        = .error (.definition [⟨[.key "name"], .stringPatternMismatch⟩]) ∧
      registrySchema.accepts (Property.documentOf [.obj largeFloatItem]) = true ∧
      ofDocument (Property.documentOf [.obj largeFloatItem])
        = .error (.definition [⟨[.key "index"], .intParsingSize⟩]) := by
  have hfails {item : List (String × Json)} {issues : List Issue}
      (hdoc : registrySchema.accepts (Property.documentOf [.obj item]) = true)
      (hread : Definition.read item = .error issues) :
      ofDocument (Property.documentOf [.obj item]) = .error (.definition issues) :=
    ofDocument_eq_error_iff.2
      (.inr (.inl ⟨issues, rfl, [], item, [], ⟨hdoc, rfl⟩, nofun, hread⟩))
  have hlineFeed : registrySchema.accepts (Property.documentOf [.obj lineFeedItem]) = true := by
    decide +kernel
  have hlarge : registrySchema.accepts (Property.documentOf [.obj largeFloatItem]) = true := by
    decide +kernel
  exact ⟨hlineFeed, hfails hlineFeed (by decide +kernel), hlarge,
    hfails hlarge (by decide +kernel)⟩

end Measures.Registry
