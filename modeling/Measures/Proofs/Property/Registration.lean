import Measures.Proofs.Property.Registry

/-!
# Registrations

Definitions may come in any number and order, taken ones among them. The two dictionaries agree
after every attempt, and what was once found is found from then on.
-/

namespace Measures

namespace Registry

variable {r r' : Registry} {ds es : List Definition} {d : Definition}

/-- Lookups by index, lookups by name, membership and order agree with one another. -/
structure Coherent (r : Registry) : Prop where
  get : ∀ key d, r.get key = .ok d →
    keyIndex? key = some (d.index : Int) ∧ r.byName (.text d.name) = .ok d
  byName : ∀ key d, r.byName key = .ok d →
    key.text? = some d.name ∧ r.get (.int d.index) = .ok d
  contains_name : ∀ key n, key.text? = some n → r.contains key = .ok (r.byName key).isOk
  contains_index : ∀ key i, key.integer? = some i → r.contains key = .ok (r.get key).isOk
  toList_pairwise : r.toList.Pairwise fun a b => a.index < b.index
  mem_toList : ∀ d, d ∈ r.toList ↔ r.get (.int d.index) = .ok d

theorem Holds.coherent (h : r.Holds ds) : r.Coherent where
  get key d hget := by
    obtain ⟨hd, hkey⟩ := h.get_eq_ok_iff.1 hget
    exact ⟨hkey, h.byName_eq_ok_iff.2 ⟨hd, rfl⟩⟩
  byName key d hname := by
    obtain ⟨hd, hkey⟩ := h.byName_eq_ok_iff.1 hname
    exact ⟨hkey, h.get_eq_ok_iff.2 ⟨hd, rfl⟩⟩
  contains_name key n hkey := contains_of_text hkey
  contains_index key i hkey := contains_of_integer hkey
  toList_pairwise := h.toList_pairwise
  mem_toList d := by
    rw [h.toList_perm.mem_iff, h.get_eq_ok_iff]
    exact ⟨fun hd => ⟨hd, rfl⟩, fun hd => hd.1⟩

/-- Whatever one registry finds, the other one finds. -/
def Keeps (r r' : Registry) : Prop :=
  (∀ key d, r.get key = .ok d → r'.get key = .ok d) ∧
    ∀ key d, r.byName key = .ok d → r'.byName key = .ok d

theorem Holds.keeps (h : r.Holds ds) (h' : r'.Holds (ds ++ es)) : r.Keeps r' := by
  constructor
  · intro key d hget
    obtain ⟨hd, hkey⟩ := h.get_eq_ok_iff.1 hget
    exact h'.get_eq_ok_iff.2 ⟨List.mem_append_left _ hd, hkey⟩
  · intro key d hname
    obtain ⟨hd, hkey⟩ := h.byName_eq_ok_iff.1 hname
    exact h'.byName_eq_ok_iff.2 ⟨List.mem_append_left _ hd, hkey⟩

end Registry

namespace Journal

variable {j : Journal} {ds : List Definition} {d : Definition}

/-- An attempt adds the definition and one record, or it changes nothing. -/
theorem register_cases (h : j.registry.Holds ds) (d : Definition) :
    (Registry.Fresh ds d ∧ (register d).perform j
        = (.ok (), ⟨j.registry.extended d, j.records ++ [.registered d]⟩)) ∨
      (¬ Registry.Fresh ds d ∧
        ∃ f, f.kind = .badValue ∧ (register d).perform j = (.error f, j)) := by
  rcases h.add_cases d with ⟨hd, hadd⟩ | ⟨hd, f, hf, hadd⟩
  · refine .inl ⟨hd, ?_⟩
    simp [register, Action.perform_bind, hadd]
  · refine .inr ⟨hd, f, hf, ?_⟩
    simp [register, Action.perform_bind, hadd]

/-- The definitions whose registration succeeds. -/
def accepted (j : Journal) : List Definition → List Definition
  | [] => []
  | d :: rest =>
    let (result, next) := (register d).perform j
    if result.isOk then d :: accepted next rest else accepted next rest

theorem holds_after (h : j.registry.Holds ds) (attempts : List Definition) :
    (Action.after register j attempts).registry.Holds (ds ++ j.accepted attempts) := by
  induction attempts generalizing j ds with
  | nil => simpa [Action.after, accepted] using h
  | cons d rest ih =>
    rcases register_cases h d with ⟨hd, hreg⟩ | ⟨-, f, -, hreg⟩
    · have hrest := ih (j := ⟨_, j.records ++ [.registered d]⟩) (h.extended hd)
      simp only [Action.after, List.foldl_cons, accepted, hreg] at hrest ⊢
      rwa [List.append_assoc] at hrest
    · have hrest := ih h
      simp only [Action.after, List.foldl_cons, accepted, hreg] at hrest ⊢
      exact hrest

/-- What one attempt comes to: it fails for a bad value exactly if a lookup finds its index or its
name, and then leaves registry and records as they are; otherwise it makes one record and changes
the lookups of its own index and name alone. -/
structure Attempted (j : Journal) (d : Definition) : Prop where
  fails_iff : (∃ f, ((register d).perform j).1 = .error f) ↔
    (∃ e, j.registry.get (.int d.index) = .ok e) ∨ ∃ e, j.registry.byName (.text d.name) = .ok e
  failure : ∀ f, ((register d).perform j).1 = .error f →
    f.kind = .badValue ∧ ((register d).perform j).2 = j
  success : ((register d).perform j).1 = .ok () → ∃ r,
    ((register d).perform j).2 = ⟨r, j.records ++ [.registered d]⟩ ∧
      r.get (.int d.index) = .ok d ∧
      (∀ key, Registry.keyIndex? key ≠ some (d.index : Int) → r.get key = j.registry.get key) ∧
      ∀ key, key.text? ≠ some d.name → r.byName key = j.registry.byName key

theorem attempted (h : j.registry.Holds ds) (d : Definition) : j.Attempted d := by
  rcases register_cases h d with ⟨hd, hreg⟩ | ⟨hd, f, hf, hreg⟩
  · have hnot := fun ht => h.not_fresh_iff.2 ht hd
    refine ⟨?_, ?_, fun _ => ⟨_, by rw [hreg], ?_, fun key => Registry.get_extended,
      fun key => Registry.byName_extended⟩⟩
    · rw [hreg]
      constructor
      · rintro ⟨f, hf⟩
        cases hf
      · exact fun ht => absurd ht hnot
    · rw [hreg]
      rintro f hf
      cases hf
    · exact (h.extended hd).get_eq_ok_iff.2 ⟨List.mem_append_right _ (by simp), rfl⟩
  · refine ⟨?_, ?_, ?_⟩
    · rw [hreg]
      exact ⟨fun _ => h.not_fresh_iff.1 hd, fun _ => ⟨f, rfl⟩⟩
    · rw [hreg]
      rintro g hg
      obtain rfl := Except.error.inj hg
      exact ⟨hf, rfl⟩
    · rw [hreg]
      intro hok
      cases hok

/-- After any attempts on a registry both its dictionaries hold the definitions that it was made of
and those accepted since, one by one, all its lookups agree, and whatever it finds it finds after
all later attempts. -/
theorem registrations {attempts : List Definition} {r : Registry} {records : List Record}
    (hr : Registry.ofDefinitions ds = .ok r)
    (hj : j = Action.after register ⟨r, records⟩ attempts) :
    j.registry.Holds (ds ++ accepted ⟨r, records⟩ attempts) ∧
      j.registry.Coherent ∧
      j.registry.toList.Perm (ds ++ accepted ⟨r, records⟩ attempts) ∧
      j.registry.size = ds.length + (accepted ⟨r, records⟩ attempts).length ∧
      (∀ d, j.Attempted d) ∧
      ∀ later, j.registry.Keeps (Action.after register j later).registry := by
  have h : j.registry.Holds (ds ++ accepted ⟨r, records⟩ attempts) := by
    rw [hj]
    exact holds_after (Registry.holds_of_ofDefinitions hr) attempts
  refine ⟨h, h.coherent, h.toList_perm, ?_, attempted h, fun later => h.keeps (holds_after h later)⟩
  rw [Registry.size, h.indexed, List.length_map, List.length_append]

def width : Definition := ⟨1, "width", .ofList [.number], none, by decide, by decide⟩

def height : Definition := ⟨2, "height", .ofList [.number], none, by decide, by decide⟩

/-- The index of `width` under another name, its name under another index, and a new definition. -/
def attempts : List Definition := [{ height with index := 1 }, { width with index := 2 }, height]

theorem registrations_width :
    ∃ r, Registry.ofDefinitions [width] = .ok r ∧ accepted ⟨r, []⟩ attempts = [height] ∧
      (Action.after register ⟨r, []⟩ attempts).registry.Coherent ∧
      (Action.after register ⟨r, []⟩ attempts).registry.toList.Perm [width, height] ∧
      (Action.after register ⟨r, []⟩ attempts).Attempted width := by
  have hr : Registry.ofDefinitions [width] = .ok (Registry.empty.extended width) := rfl
  have haccepted : accepted ⟨Registry.empty.extended width, []⟩ attempts = [height] := rfl
  obtain ⟨-, hcoherent, hperm, -, hattempted, -⟩ :=
    registrations (j := Action.after register ⟨_, []⟩ attempts) hr rfl
  rw [haccepted] at hperm
  exact ⟨_, hr, haccepted, hcoherent, hperm, hattempted width⟩

end Journal

end Measures
