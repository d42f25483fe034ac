import Measures.Proofs.Property.Definition
import Measures.Proofs.Property.Verdict

/-!
# The grammar of names

Names are said without their repetitions, by conditions on single characters and on neighbours.
Definitions take just these texts for names. The contract takes them with one line feed at the
end, too.
-/

namespace Measures.Property

variable {c : Char} {cs rest : List Char} {s key : String} {fields : List (String × Json)}
  {doc j : Json}

/-- Lower-case letters, digits and hyphens. A letter comes first, no hyphen comes last, and no two
hyphens are neighbours. -/
structure NameGrammar (cs : List Char) : Prop where
  nonempty : cs ≠ []
  characters : ∀ c ∈ cs, ('a' ≤ c ∧ c ≤ 'z') ∨ ('0' ≤ c ∧ c ≤ '9') ∨ c = '-'
  first : ∀ c, cs.head? = some c → 'a' ≤ c ∧ c ≤ 'z'
  last : cs.getLast? ≠ some '-'
  apart : ¬ ['-', '-'] <:+: cs

/-! ## Conditions on characters -/

/-- Words with single hyphens between them and perhaps one in front: what may continue a name. -/
structure Spaced (cs : List Char) : Prop where
  characters : ∀ c ∈ cs, isWordChar c = true ∨ c = '-'
  last : cs.getLast? ≠ some '-'
  apart : ¬ ['-', '-'] <:+: cs

theorem spaced_nil : Spaced [] := ⟨nofun, nofun, by simp⟩

theorem isLetter_iff : isLetter c = true ↔ 'a' ≤ c ∧ c ≤ 'z' := by simp [isLetter]

theorem isWordChar_iff :
    isWordChar c = true ↔ ('a' ≤ c ∧ c ≤ 'z') ∨ ('0' ≤ c ∧ c ≤ '9') := by
  simp [isWordChar, isLetter]

theorem getLast?_cons_ne_iff (h : c ≠ '-') :
    (c :: rest).getLast? ≠ some '-' ↔ rest.getLast? ≠ some '-' := by
  cases rest with
  | nil => simp [h]
  | cons d rest => rw [List.getLast?_cons_cons]

theorem spaced_cons_iff (hc : isWordChar c = true) : Spaced (c :: rest) ↔ Spaced rest := by
  have hne := ne_hyphen_of_isWordChar hc
  have hapart : ['-', '-'] <:+: c :: rest ↔ ['-', '-'] <:+: rest := by
    simp [List.infix_cons_iff, List.cons_prefix_cons, hne.symm]
  constructor
  · rintro ⟨hchars, hlast, hnot⟩
    exact ⟨(List.forall_mem_cons.1 hchars).2, (getLast?_cons_ne_iff hne).1 hlast,
      fun h => hnot (hapart.2 h)⟩
  · rintro ⟨hchars, hlast, hnot⟩
    exact ⟨List.forall_mem_cons.2 ⟨.inl hc, hchars⟩, (getLast?_cons_ne_iff hne).2 hlast,
      fun h => hnot (hapart.1 h)⟩

/-- A hyphen is followed by a word. -/
theorem spaced_hyphen_iff :
    Spaced ('-' :: c :: rest) ↔ isWordChar c = true ∧ Spaced (c :: rest) := by
  have hapart : ['-', '-'] <:+: '-' :: c :: rest ↔ c = '-' ∨ ['-', '-'] <:+: c :: rest := by
    rw [List.infix_cons_iff]
    simp [List.cons_prefix_cons, eq_comm]
  constructor
  · rintro ⟨hchars, hlast, hnot⟩
    obtain ⟨-, hchars⟩ := List.forall_mem_cons.1 hchars
    have hc : c ≠ '-' := fun h => hnot (hapart.2 (.inl h))
    have hword := ((List.forall_mem_cons.1 hchars).1).resolve_right hc
    exact ⟨hword, hchars, hlast, fun h => hnot (hapart.2 (.inr h))⟩
  · rintro ⟨hword, hchars, hlast, hnot⟩
    refine ⟨List.forall_mem_cons.2 ⟨.inr rfl, hchars⟩, hlast, fun h => ?_⟩
    exact (hapart.1 h).elim (ne_hyphen_of_isWordChar hword) hnot

/-- By the recursion of `continuesName`: a hyphen takes the first character of its word along. -/
theorem continuesName_iff : continuesName cs = true ↔ Spaced cs := by
  fun_induction continuesName cs with
  | case1 => exact iff_of_true rfl spaced_nil
  | case2 c rest ih =>
    rw [Bool.and_eq_true, ih, spaced_hyphen_iff]
    exact and_congr_right fun hc => (spaced_cons_iff hc).symm
  | case3 c rest hhyphen ih =>
    rw [Bool.and_eq_true, ih]
    constructor
    · rintro ⟨hc, hrest⟩
      exact (spaced_cons_iff hc).2 hrest
    · intro h
      have hc : isWordChar c = true := by
        refine (h.characters c List.mem_cons_self).resolve_right ?_
        -- a hyphen here would be the last character
        rintro rfl
        cases rest with
        | nil => exact h.last rfl
        | cons d rest => exact hhyphen d rest rfl rfl
      exact ⟨hc, (spaced_cons_iff hc).1 h⟩

theorem isName_iff : isName cs = true ↔ NameGrammar cs := by
  cases cs with
  | nil => exact iff_of_false Bool.false_ne_true fun h => h.nonempty rfl
  | cons c rest =>
    have hcharacters : (∀ d ∈ c :: rest, isWordChar d = true ∨ d = '-') ↔
        ∀ d ∈ c :: rest, ('a' ≤ d ∧ d ≤ 'z') ∨ ('0' ≤ d ∧ d ≤ '9') ∨ d = '-' := by
      simp only [isWordChar_iff, or_assoc]
    rw [isName, Bool.and_eq_true]
    constructor
    · rintro ⟨hc, hrest⟩
      have hword := isWordChar_of_isLetter hc
      have h := (spaced_cons_iff hword).2 (continuesName_iff.1 hrest)
      refine ⟨List.cons_ne_nil c rest, hcharacters.1 h.characters, ?_, h.last, h.apart⟩
      rintro _ ⟨⟩
      exact isLetter_iff.1 hc
    · rintro ⟨-, hchars, hfirst, hlast, hapart⟩
      have hc := isLetter_iff.2 (hfirst c rfl)
      have h : Spaced (c :: rest) := ⟨hcharacters.2 hchars, hlast, hapart⟩
      exact ⟨hc, continuesName_iff.2 ((spaced_cons_iff (isWordChar_of_isLetter hc)).1 h)⟩

theorem occursIn_nameForm_iff_grammar :
    nameForm.occursIn s = true ↔
      NameGrammar s.toList ∨ ∃ t, s.toList = t ++ ['\n'] ∧ NameGrammar t := by
  simp only [occursIn_nameForm, isName_iff]
  constructor
  · rintro ⟨t, rest, hs, ht, rfl | rfl⟩
    · rw [List.append_nil] at hs
      exact .inl (hs ▸ ht)
    · exact .inr ⟨t, hs, ht⟩
  · rintro (h | ⟨t, hs, ht⟩)
    · exact ⟨s.toList, [], (List.append_nil _).symm, h, .inl rfl⟩
    · exact ⟨t, ['\n'], hs, ht, .inr rfl⟩

theorem occursIn_strictNameForm_iff_grammar :
    strictNameForm.occursIn s = true ↔ NameGrammar s.toList :=
  occursIn_strictNameForm.trans isName_iff

/-! ## Names of definitions -/

theorem readName_str_iff {n : Definition.Name} :
    Definition.readName (.str s) = .ok n ↔ n.1 = s := by
  constructor
  · intro h
    rw [Definition.readName] at h
    split at h
    · cases h
    · split at h
      · cases h
      · split at h <;> cases h
        rfl
  · rintro rfl
    have hform : nameForm.occursIn n.1 = true :=
      occursIn_nameForm_iff_grammar.2 (.inl (occursIn_strictNameForm_iff_grammar.1 n.2))
    exact (Definition.readName_eq_ok_iff hform).2 rfl

theorem exists_readName_iff :
    (∃ n, Definition.readName (.str s) = .ok n) ↔ NameGrammar s.toList := by
  simp only [readName_str_iff, ← occursIn_strictNameForm_iff_grammar]
  constructor
  · rintro ⟨n, rfl⟩
    exact n.2
  · intro h
    exact ⟨⟨s, h⟩, rfl⟩

/-- The issues are about one field, or about an item of its list. -/
def AllAbout (key : String) (issues : List Issue) : Prop :=
  ∀ issue ∈ issues, issue.path.head? = some (.key key)

theorem AllAbout.elsewhere {issues : List Issue} {other : String} (h : AllAbout key issues)
    (hne : key ≠ other) : ∀ issue ∈ issues, issue.path.head? ≠ some (.key other) := by
  intro issue hissue
  rw [h issue hissue]
  simp [hne]

theorem allAbout_atKey {α : Type} (read : Except IssueKind α) :
    AllAbout key (Definition.issuesOf (Definition.atKey key read)) := by
  cases read <;> simp [AllAbout, Definition.issuesOf, Definition.atKey, Except.mapError]

theorem issuesOf_atKey {α : Type} {read : Except IssueKind α} :
    Definition.issuesOf (Definition.atKey key read) = [] ↔ ∃ a, read = .ok a := by
  cases read <;> simp [Definition.issuesOf, Definition.atKey, Except.mapError]

theorem allAbout_needed {α : Type} {read : Json → Except (List Issue) α}
    (h : ∀ j, AllAbout key (Definition.issuesOf (read j))) :
    AllAbout key (Definition.issuesOf (Definition.needed fields key read)) := by
  unfold Definition.needed
  split
  · simp [AllAbout, Definition.issuesOf]
  · exact h _

theorem allAbout_categoryIssues {i : Nat} {js : List Json} :
    AllAbout "categories" (Definition.categoryIssues i js) := by
  induction js generalizing i with
  | nil => nofun
  | cons j rest ih =>
    intro issue hissue
    rw [Definition.categoryIssues] at hissue
    rcases List.mem_append.1 hissue with hissue | hissue
    · split at hissue
      · cases hissue
      · rw [List.mem_singleton.1 hissue]
        rfl
    · exact ih issue hissue

theorem allAbout_readCategories :
    AllAbout "categories" (Definition.issuesOf (Definition.readCategories j)) := by
  unfold Definition.readCategories
  split
  · dsimp only
    split
    · exact allAbout_categoryIssues
    · split <;> simp [AllAbout, Definition.issuesOf]
  · simp [AllAbout, Definition.issuesOf]

theorem issuesOf_read :
    Definition.issuesOf (Definition.read fields) =
      Definition.issuesOf (Definition.needed fields "index" fun j =>
        Definition.atKey "index" (Definition.readIndex j)) ++
      Definition.issuesOf (Definition.needed fields "name" fun j =>
        Definition.atKey "name" (Definition.readName j)) ++
      Definition.issuesOf (Definition.needed fields "categories" Definition.readCategories) ++
      Definition.issuesOf (Definition.atKey "description"
        (Definition.readDescription (fields.lookup "description"))) := by
  dsimp only [Definition.read]
  split
  · next hindex hname hcategories hdescription =>
    rw [hindex, hname, hcategories, hdescription]
    rfl
  · rfl

theorem issuesOf_name (h : fields.lookup "name" = some (.str s)) :
    Definition.issuesOf (Definition.needed fields "name" fun j =>
      Definition.atKey "name" (Definition.readName j)) = [] ↔ NameGrammar s.toList := by
  rw [← exists_readName_iff, Definition.needed, h]
  exact issuesOf_atKey

/-- Of all that is wrong with the fields of a definition, nothing is wrong with the name. -/
def NameTaken (fields : List (String × Json)) : Prop :=
  ∀ issue ∈ Definition.issuesOf (Definition.read fields), issue.path.head? ≠ some (.key "name")

/-- Whatever the other fields are, a name is taken if and only if it is in the grammar. -/
theorem nameTaken_iff (h : fields.lookup "name" = some (.str s)) :
    NameTaken fields ↔ NameGrammar s.toList := by
  have hindex : AllAbout "index" (Definition.issuesOf (Definition.needed fields "index" fun j =>
      Definition.atKey "index" (Definition.readIndex j))) :=
    allAbout_needed fun j => allAbout_atKey (Definition.readIndex j)
  have hname : AllAbout "name" (Definition.issuesOf (Definition.needed fields "name" fun j =>
      Definition.atKey "name" (Definition.readName j))) :=
    allAbout_needed fun j => allAbout_atKey (Definition.readName j)
  have hcategories : AllAbout "categories" (Definition.issuesOf
      (Definition.needed fields "categories" Definition.readCategories)) :=
    allAbout_needed fun _ => allAbout_readCategories
  have hdescription : AllAbout "description" (Definition.issuesOf (Definition.atKey "description"
      (Definition.readDescription (fields.lookup "description")))) := allAbout_atKey _
  rw [NameTaken, ← issuesOf_name h, issuesOf_read]
  simp only [List.forall_mem_append]
  constructor
  · rintro ⟨⟨⟨-, hnot⟩, -⟩, -⟩
    exact List.eq_nil_iff_forall_not_mem.2 fun issue hmem => hnot issue hmem (hname issue hmem)
  · intro hnil
    rw [hnil]
    exact ⟨⟨⟨hindex.elsewhere (by decide), nofun⟩, hcategories.elsewhere (by decide)⟩,
      hdescription.elsewhere (by decide)⟩

/-! ## Names in documents -/

/-- A field of an item is reported in the document if it is reported in the item. -/
theorem exists_at_field_iff {items : List Json} {item : Json} {i : Nat}
    (hitems : doc.get? "properties" = some (.arr items)) (hitem : items[i]? = some item) :
    (∃ v ∈ registrySchema.check doc, [.key "properties", .index i, .key key] <+: v.path) ↔
      underKey key (itemSchema.check item) ≠ [] := by
  have hunder (v : Violation) : v ∈ underKey "properties" (registrySchema.check doc) ↔
      v ∈ registrySchema.check doc ∧ v.path.head? = some (.key "properties") := by
    simp [underKey]
  constructor
  · rintro ⟨v, hv, tail, hpath⟩
    have hmem := (hunder v).2 ⟨hv, by rw [← hpath]; rfl⟩
    rw [underKey_registrySchema hitems, List.mem_flatMap] at hmem
    obtain ⟨⟨found, k⟩, hfound, hmem⟩ := hmem
    obtain ⟨w, hw, rfl⟩ := List.mem_map.1 hmem
    obtain ⟨rfl, hhead⟩ : i = k ∧ .key key :: tail = w.path := by
      simpa [Violation.under] using hpath
    obtain rfl : item = found :=
      Option.some.inj (hitem.symm.trans (List.mk_mem_zipIdx_iff_getElem?.1 hfound))
    exact List.ne_nil_of_mem (List.mem_filter.2 ⟨hw, by simp [← hhead]⟩)
  · intro hne
    obtain ⟨w, hmem⟩ := List.exists_mem_of_ne_nil _ hne
    obtain ⟨hw, hhead⟩ := List.mem_filter.1 hmem
    obtain ⟨tail, htail⟩ := List.head?_eq_some_iff.1 (beq_iff_eq.1 hhead)
    have hv : (w.under (.index i)).under (.key "properties") ∈
        underKey "properties" (registrySchema.check doc) := by
      rw [underKey_registrySchema hitems, List.mem_flatMap]
      exact ⟨(item, i), List.mk_mem_zipIdx_iff_getElem?.2 hitem, List.mem_map_of_mem hw⟩
    exact ⟨_, ((hunder _).1 hv).1, tail, by simp [Violation.under, htail]⟩

/-- Of all that the contract reports of a document, nothing is at the name of its item `i`. -/
def NameAllowed (doc : Json) (i : Nat) : Prop :=
  ∀ v ∈ SchemaDocument.contract.check doc,
    ¬ [.key "properties", .index i, .key "name"] <+: v.path

theorem nameAllowed_iff {items : List Json} {i : Nat}
    (hitems : doc.get? "properties" = some (.arr items))
    (hitem : items[i]? = some (.obj fields)) (h : fields.lookup "name" = some (.str s)) :
    NameAllowed doc i ↔ nameForm.occursIn s = true := by
  have hcheck : SchemaDocument.contract.check doc = registrySchema.check doc :=
    selfContained_registry.closed _ doc
  have hpart : ("name", textSchema nameForm) ∈ itemFields := by simp [itemFields]
  have hunder : underKey "name" (itemSchema.check (.obj fields))
      = ((textSchema nameForm).check (.str s)).map (.under (.key "name")) :=
    underKey_object hpart (by decide) h
  have hreported : ¬ NameAllowed doc i ↔ nameForm.occursIn s = false := by
    rw [NameAllowed, hcheck]
    simp only [not_forall, not_not, exists_prop]
    rw [exists_at_field_iff hitems hitem, hunder, Ne, List.map_eq_nil_iff, text_accepts_iff]
    simp
  rw [← Bool.not_eq_false, ← hreported, not_not]

/-! ## Both sides -/

/-- A text given as a name is taken for a definition if it is in the grammar, and it is allowed in a
document if it is in the grammar, itself or without a line feed at its end. What else is given does
not matter, and a definition has the text as it was given. -/
theorem name_grammar (s : String) :
    (∀ fields, fields.lookup "name" = some (.str s) →
      (NameTaken fields ↔ NameGrammar s.toList) ∧
        ∀ d, Definition.read fields = .ok d → d.name = s) ∧
    ∀ doc items i fields, doc.get? "properties" = some (.arr items) →
      items[i]? = some (.obj fields) → fields.lookup "name" = some (.str s) →
      (NameAllowed doc i ↔
        NameGrammar s.toList ∨ ∃ t, s.toList = t ++ ['\n'] ∧ NameGrammar t) := by
  refine ⟨fun fields h => ⟨nameTaken_iff h, fun d hd => ?_⟩, ?_⟩
  · obtain ⟨-, ⟨j, hj, hread⟩, -⟩ := Definition.read_eq_ok_iff.1 hd
    obtain rfl : .str s = j := Option.some.inj (h.symm.trans hj)
    exact readName_str_iff.1 hread
  · intro doc items i fields hitems hitem h
    rw [nameAllowed_iff hitems hitem h, occursIn_nameForm_iff_grammar]

/-- A name is taken and allowed, with a line feed after it only allowed, and with two neither. -/
theorem name_grammar_line_feeds :
    let fields (s : String) : List (String × Json) := [("name", .str s)]
    let doc (s : String) : Json := .obj [("properties", .arr [.null, .obj (fields s)])]
    (NameTaken (fields "a-b") ∧ NameAllowed (doc "a-b") 1) ∧
      (¬ NameTaken (fields "a-b\n") ∧ NameAllowed (doc "a-b\n") 1) ∧
      ¬ NameTaken (fields "a-b\n\n") ∧ ¬ NameAllowed (doc "a-b\n\n") 1 := by
  intro fields doc
  have htaken (s : String) : NameTaken (fields s) ↔ strictNameForm.occursIn s = true :=
    ((name_grammar s).1 (fields s) rfl).1.trans occursIn_strictNameForm_iff_grammar.symm
  have hallowed (s : String) : NameAllowed (doc s) 1 ↔ nameForm.occursIn s = true :=
    ((name_grammar s).2 (doc s) _ 1 (fields s) rfl rfl rfl).trans occursIn_nameForm_iff_grammar.symm
  simp only [htaken, hallowed]
  decide +kernel

end Measures.Property
