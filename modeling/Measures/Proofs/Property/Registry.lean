import Mathlib.Data.List.Nodup
import Measures.Proofs.Failure
import Measures.Property.Registry

/-!
# Registries hold definitions

A registry that is built by adding holds a list of definitions: both dictionaries list the very same
ones, each under a key of its own. Every lookup is then a question about this list.
-/

namespace Measures.Registry

variable {r : Registry} {ds : List Definition} {d : Definition} {key : Datum}

/-- Both dictionaries hold the definitions in the order in which they were added; all indices are
different and all names are. -/
structure Holds (r : Registry) (ds : List Definition) : Prop where
  indexed : r.indexed = ds.map fun d => ((d.index : Int), d)
  named : r.named = ds.map fun d => (d.name, d)
  indices : (ds.map (·.index)).Nodup
  names : (ds.map (·.name)).Nodup

theorem holds_empty : empty.Holds [] := ⟨rfl, rfl, .nil, .nil⟩

/-! ## Lookups -/

/-- A key that can be looked up is looked up as it is. -/
theorem get_eq (r : Registry) (key : Datum) :
    r.get key = key.asKey >>= fun _ => match (keyIndex? key).bind r.atIndex? with
      | some d => .ok d
      | none => .error (.unknownIndex key.display) := by
  cases key <;> rfl

theorem byName_eq (r : Registry) (key : Datum) :
    r.byName key = key.asKey >>= fun _ => match key.text?.bind r.named? with
      | some d => .ok d
      | none => .error (.unknownName key.display) := by
  cases key <;> rfl

theorem asKey_eq_ok {i : Int} (h : keyIndex? key = some i) : key.asKey = .ok key := by
  cases key with
  | list items => cases h
  | _ => rfl

theorem asKey_eq_ok_of_text {n : String} (h : key.text? = some n) : key.asKey = .ok key := by
  cases key with
  | list items => cases h
  | _ => rfl

theorem get_eq_ok_iff :
    r.get key = .ok d ↔ ∃ i, keyIndex? key = some i ∧ r.atIndex? i = some d := by
  rw [get_eq, ← Option.bind_eq_some_iff]
  cases hk : keyIndex? key with
  | none => cases h : key.asKey <;> simp
  | some i =>
    rw [asKey_eq_ok hk, ok_bind, Option.bind_some]
    cases r.atIndex? i <;> simp

theorem byName_eq_ok_iff :
    r.byName key = .ok d ↔ ∃ n, key.text? = some n ∧ r.named? n = some d := by
  rw [byName_eq, ← Option.bind_eq_some_iff]
  cases hk : key.text? with
  | none => cases h : key.asKey <;> simp
  | some n =>
    rw [asKey_eq_ok_of_text hk, ok_bind, Option.bind_some]
    cases r.named? n <;> simp

theorem contains_of_text {n : String} (h : key.text? = some n) :
    r.contains key = .ok (r.byName key).isOk := by
  rw [byName_eq, asKey_eq_ok_of_text h, ok_bind, h, Option.bind_some]
  simp only [contains, h]
  cases r.named? n <;> rfl

theorem keyIndex?_of_integer? {i : Int} (h : key.integer? = some i) : keyIndex? key = some i := by
  cases key with
  | float x => cases h
  | _ => exact h

theorem contains_of_integer {i : Int} (h : key.integer? = some i) :
    r.contains key = .ok (r.get key).isOk := by
  have hk : keyIndex? key = some i := keyIndex?_of_integer? h
  have ht : key.text? = none := by
    cases key with
    | text s | member m => cases h
    | _ => rfl
  rw [get_eq, asKey_eq_ok hk, ok_bind, hk, Option.bind_some]
  simp only [contains, ht, asKey_eq_ok hk, Except.map, hk, Option.bind_some]
  cases r.atIndex? i <;> rfl

theorem Holds.atIndex?_eq_some_iff (h : r.Holds ds) {i : Int} :
    r.atIndex? i = some d ↔ d ∈ ds ∧ (d.index : Int) = i := by
  unfold atIndex?
  rw [h.indexed]
  refine Dictionary.lookup_map_eq_some_iff ?_
  have hinj : Function.Injective fun n : Nat => (n : Int) := fun _ _ => Int.ofNat_inj.1
  have hcast := h.indices.map hinj
  rwa [List.map_map] at hcast

theorem Holds.named?_eq_some_iff (h : r.Holds ds) {n : String} :
    r.named? n = some d ↔ d ∈ ds ∧ d.name = n := by
  unfold named?
  rw [h.named]
  exact Dictionary.lookup_map_eq_some_iff h.names

/-- A lookup by index finds the definition whose index the key equals. -/
theorem Holds.get_eq_ok_iff (h : r.Holds ds) :
    r.get key = .ok d ↔ d ∈ ds ∧ keyIndex? key = some (d.index : Int) := by
  rw [Registry.get_eq_ok_iff]
  constructor
  · rintro ⟨i, hkey, hi⟩
    obtain ⟨hd, rfl⟩ := h.atIndex?_eq_some_iff.1 hi
    exact ⟨hd, hkey⟩
  · rintro ⟨hd, hkey⟩
    exact ⟨d.index, hkey, h.atIndex?_eq_some_iff.2 ⟨hd, rfl⟩⟩

/-- A lookup by name finds the definition whose name is the text of the key. -/
theorem Holds.byName_eq_ok_iff (h : r.Holds ds) :
    r.byName key = .ok d ↔ d ∈ ds ∧ key.text? = some d.name := by
  rw [Registry.byName_eq_ok_iff]
  constructor
  · rintro ⟨n, hkey, hn⟩
    obtain ⟨hd, rfl⟩ := h.named?_eq_some_iff.1 hn
    exact ⟨hd, hkey⟩
  · rintro ⟨hd, hkey⟩
    exact ⟨d.name, hkey, h.named?_eq_some_iff.2 ⟨hd, rfl⟩⟩

/-! ## Order -/

theorem perm_insertByIndex (d : Definition) (ds : List Definition) :
    (insertByIndex d ds).Perm (d :: ds) := by
  induction ds with
  | nil => exact .refl _
  | cons e rest ih =>
    unfold insertByIndex
    split
    · exact .refl _
    · exact (ih.cons e).trans (.swap d e rest)

theorem pairwise_insertByIndex (d : Definition)
    (h : ds.Pairwise fun a b => a.index ≤ b.index) :
    (insertByIndex d ds).Pairwise fun a b => a.index ≤ b.index := by
  induction ds with
  | nil => simp [insertByIndex]
  | cons e rest ih =>
    obtain ⟨he, hrest⟩ := List.pairwise_cons.1 h
    unfold insertByIndex
    split
    · rename_i hlt
      refine List.pairwise_cons.2 ⟨fun a ha => ?_, h⟩
      rcases List.mem_cons.1 ha with rfl | ha
      · omega
      · have := he a ha
        omega
    · rename_i hge
      refine List.pairwise_cons.2 ⟨fun a ha => ?_, ih hrest⟩
      rcases List.mem_cons.1 ((perm_insertByIndex d rest).mem_iff.1 ha) with rfl | ha
      · omega
      · exact he a ha

theorem Holds.toList_perm (h : r.Holds ds) : r.toList.Perm ds := by
  have hfold (ds : List Definition) : (ds.foldr insertByIndex []).Perm ds := by
    induction ds with
    | nil => exact .refl _
    | cons d rest ih => exact (perm_insertByIndex d _).trans (ih.cons d)
  unfold toList
  have hvalues : (ds.map fun d => ((d.index : Int), d)).map (·.2) = ds := by
    rw [List.map_map]
    exact List.map_id ds
  rw [h.indexed, hvalues]
  exact hfold ds

/-- The definitions come in the order of their indices, no index twice. -/
theorem Holds.toList_pairwise (h : r.Holds ds) :
    r.toList.Pairwise fun a b => a.index < b.index := by
  have hle : r.toList.Pairwise fun a b => a.index ≤ b.index := by
    unfold toList
    induction r.indexed.map (·.2) with
    | nil => exact .nil
    | cons d rest ih => exact pairwise_insertByIndex d ih
  have hnodup : (r.toList.map (·.index)).Nodup := (h.toList_perm.map _).nodup_iff.2 h.indices
  have hne : r.toList.Pairwise fun a b => a.index ≠ b.index := List.pairwise_map.1 hnodup
  exact (hle.and hne).imp fun ⟨hle, hne⟩ => by omega

/-! ## Adding -/

/-- Neither the index nor the name is taken. -/
def Fresh (ds : List Definition) (d : Definition) : Prop :=
  ∀ e ∈ ds, e.index ≠ d.index ∧ e.name ≠ d.name

/-- How a definition clashes with others: one of them has its index, or else its name. -/
inductive Clash (ds : List Definition) (d : Definition) : Fault → Prop
  | index {e : Definition} (he : e ∈ ds) (h : e.index = d.index) :
    Clash ds d (.duplicateIndex d.index e.name d.name)
  | name {e : Definition} (hindices : ∀ x ∈ ds, x.index ≠ d.index) (he : e ∈ ds)
    (h : e.name = d.name) : Clash ds d (.duplicateName d.name)

theorem Clash.kind {f : Fault} (h : Clash ds d f) : f.kind = .badValue := by
  cases h <;> rfl

theorem Clash.not_fresh {f : Fault} (h : Clash ds d f) : ¬ Fresh ds d := by
  intro hd
  cases h with
  | index he h => exact (hd _ he).1 h
  | name _ he h => exact (hd _ he).2 h

theorem fresh_or_clash (ds : List Definition) (d : Definition) :
    Fresh ds d ∨ ∃ f, Clash ds d f := by
  by_cases hindices : ∀ e ∈ ds, e.index ≠ d.index
  · by_cases hnames : ∀ e ∈ ds, e.name ≠ d.name
    · exact .inl fun e he => ⟨hindices e he, hnames e he⟩
    · push Not at hnames
      obtain ⟨e, he, h⟩ := hnames
      exact .inr ⟨_, .name hindices he h⟩
  · push Not at hindices
    obtain ⟨e, he, h⟩ := hindices
    exact .inr ⟨_, .index he h⟩

def extended (r : Registry) (d : Definition) : Registry := (r.setIndexed d).setNamed d

theorem get_extended (hkey : keyIndex? key ≠ some (d.index : Int)) :
    (r.extended d).get key = r.get key := by
  have hlookup :
      (keyIndex? key).bind (r.extended d).atIndex? = (keyIndex? key).bind r.atIndex? := by
    refine Option.bind_congr fun i hi => ?_
    have hne : i ≠ (d.index : Int) := fun he => hkey (he ▸ hi)
    rw [atIndex?, extended, setNamed, setIndexed, Dictionary.lookup_set, if_neg hne, atIndex?]
  rw [get_eq, get_eq, hlookup]

theorem byName_extended (hkey : key.text? ≠ some d.name) :
    (r.extended d).byName key = r.byName key := by
  have hlookup : key.text?.bind (r.extended d).named? = key.text?.bind r.named? := by
    refine Option.bind_congr fun n hn => ?_
    have hne : n ≠ d.name := fun he => hkey (he ▸ hn)
    rw [named?, extended, setNamed, setIndexed, Dictionary.lookup_set, if_neg hne, named?]
  rw [byName_eq, byName_eq, hlookup]

theorem perform_add (d : Definition) (r : Registry) :
    (add d).perform r = match r.checkIndex d >>= fun _ => r.checkName d with
      | .ok _ => (.ok (), r.extended d)
      | .error f => (.error f, r) := by
  simp only [add, Action.perform_bind, Action.perform_get, Action.perform_liftM]
  cases r.checkIndex d with
  | error f => rfl
  | ok _ =>
    simp only [ok_bind]
    cases r.checkName d <;> rfl

theorem Holds.extended (h : r.Holds ds) (hd : Fresh ds d) : (r.extended d).Holds (ds ++ [d]) where
  indexed := by
    rw [List.map_append, ← h.indexed]
    refine Dictionary.set_of_lookup_eq_none ?_ d
    rw [h.indexed, Dictionary.lookup_map_eq_none_iff]
    intro e he
    have := (hd e he).1
    omega
  named := by
    rw [List.map_append, ← h.named]
    refine Dictionary.set_of_lookup_eq_none ?_ d
    change r.named.lookup d.name = none
    rw [h.named, Dictionary.lookup_map_eq_none_iff]
    exact fun e he => (hd e he).2
  indices := by
    rw [List.map_append, List.nodup_append]
    refine ⟨h.indices, by simp, ?_⟩
    simpa using fun e he => (hd e he).1
  names := by
    rw [List.map_append, List.nodup_append]
    refine ⟨h.names, by simp, ?_⟩
    simpa using fun e he => (hd e he).2

/-- A definition is taken if a lookup finds its index or its name. -/
theorem Holds.not_fresh_iff (h : r.Holds ds) :
    ¬ Fresh ds d ↔ (∃ e, r.get (.int d.index) = .ok e) ∨ ∃ e, r.byName (.text d.name) = .ok e := by
  constructor
  · intro hd
    by_contra hnone
    obtain ⟨hi, hn⟩ := not_or.1 hnone
    refine hd fun e he => ⟨fun heq => hi ⟨e, ?_⟩, fun heq => hn ⟨e, ?_⟩⟩
    · exact h.get_eq_ok_iff.2 ⟨he, by rw [heq]; rfl⟩
    · exact h.byName_eq_ok_iff.2 ⟨he, by rw [heq]; rfl⟩
  · rintro (⟨e, hget⟩ | ⟨e, hname⟩) hd
    · obtain ⟨he, hkey⟩ := h.get_eq_ok_iff.1 hget
      exact (hd e he).1 (Int.ofNat_inj.1 (Option.some.inj hkey)).symm
    · obtain ⟨he, hkey⟩ := h.byName_eq_ok_iff.1 hname
      exact (hd e he).2 (Option.some.inj hkey).symm

theorem Holds.add_of_fresh (h : r.Holds ds) (hd : Fresh ds d) :
    (add d).perform r = (.ok (), r.extended d) := by
  have hindex : r.atIndex? d.index = none := by
    refine Option.eq_none_iff_forall_ne_some.2 fun e hfound => ?_
    obtain ⟨he, heq⟩ := h.atIndex?_eq_some_iff.1 hfound
    exact (hd e he).1 (Int.ofNat_inj.1 heq)
  have hname : r.named? d.name = none := by
    refine Option.eq_none_iff_forall_ne_some.2 fun e hfound => ?_
    obtain ⟨he, heq⟩ := h.named?_eq_some_iff.1 hfound
    exact (hd e he).2 heq
  rw [perform_add]
  simp [checkIndex, checkName, hindex, hname]

theorem Holds.add_of_clash (h : r.Holds ds) {f : Fault} (hd : Clash ds d f) :
    (add d).perform r = (.error f, r) := by
  rw [perform_add]
  cases hd with
  | index he heq =>
    have hindex := h.atIndex?_eq_some_iff.2 ⟨he, congrArg Nat.cast heq⟩
    simp [checkIndex, hindex]
  | name hindices he heq =>
    have hindex : r.atIndex? d.index = none := by
      refine Option.eq_none_iff_forall_ne_some.2 fun x hfound => ?_
      obtain ⟨hx, heq⟩ := h.atIndex?_eq_some_iff.1 hfound
      exact hindices x hx (Int.ofNat_inj.1 heq)
    have hname := h.named?_eq_some_iff.2 ⟨he, heq⟩
    simp [checkIndex, checkName, hindex, hname]

/-- All that adding can come to. -/
theorem Holds.add_cases (h : r.Holds ds) (d : Definition) :
    (Fresh ds d ∧ (add d).perform r = (.ok (), r.extended d)) ∨
      (¬ Fresh ds d ∧ ∃ f, f.kind = .badValue ∧ (add d).perform r = (.error f, r)) := by
  rcases fresh_or_clash ds d with hd | ⟨f, hd⟩
  · exact .inl ⟨hd, h.add_of_fresh hd⟩
  · exact .inr ⟨hd.not_fresh, f, hd.kind, h.add_of_clash hd⟩

theorem Holds.forM_add (h : r.Holds ds) {es : List Definition}
    (hok : ((es.forM add).perform r).1 = .ok ()) :
    ((es.forM add).perform r).2.Holds (ds ++ es) := by
  induction es generalizing r ds with
  | nil => simpa using h
  | cons d rest ih =>
    simp only [List.forM_eq_forM, List.forM_cons, Action.perform_bind] at hok ih ⊢
    rcases h.add_cases d with ⟨hd, hadd⟩ | ⟨-, f, -, hadd⟩
    · rw [hadd] at hok ⊢
      have hrest := ih (h.extended hd) hok
      rwa [List.append_assoc] at hrest
    · rw [hadd] at hok
      cases hok

/-- A registry that is made of definitions holds them. -/
theorem holds_of_ofDefinitions (h : ofDefinitions ds = .ok r) : r.Holds ds := by
  obtain ⟨_, hok, rfl⟩ := map_eq_ok.1 h
  exact holds_empty.forM_add hok

end Measures.Registry
