import Measures.Proofs.Catalog.Step

/-!
# What the registries of a catalog hold

After any steps each registry holds definitions, and a step adds to one of them at most, the
definition that it registers.
-/

namespace Measures.Catalog

variable {c : Catalog} {step : Step} {o : Outcome} {id : Nat} {ds : List Definition}

/-! ## Adding to a registry -/

theorem set_registry (c : Catalog) (id : Nat) :
    c.registries.set id (c.registry id) = c.registries := by
  unfold registry
  by_cases hid : id < c.registries.length
  · rw [List.getD_eq_getElem?_getD, List.getElem?_eq_getElem hid, Option.getD_some,
      List.set_getElem_self]
  · rw [List.set_eq_of_length_le (by omega)]

/-- Adding to a registry succeeds and changes that registry alone, or it changes nothing. -/
theorem registerFields_cases (hds : (c.registry id).Holds ds) (fields : List (String × Json)) :
    (∃ d, Definition.ofFields fields = .ok d ∧ Registry.Fresh ds d ∧
      c.registerFields id fields = ⟨.ok .nothing, [.registered d],
        { c with registries := c.registries.set id ((c.registry id).extended d) }⟩) ∨
    ∃ f, c.registerFields id fields = ⟨.error f, [], c⟩ := by
  unfold registerFields
  cases hd : Definition.ofFields fields with
  | error f => exact .inr ⟨f, rfl⟩
  | ok d =>
    have hj : (⟨c.registry id, []⟩ : Journal).registry.Holds ds := hds
    rcases Journal.register_cases hj d with ⟨hfresh, hreg⟩ | ⟨-, f, -, hreg⟩
    · refine .inl ⟨d, rfl, hfresh, ?_⟩
      simp only [register, hreg]
      rfl
    · refine .inr ⟨f, ?_⟩
      simp only [register, hreg, set_registry]
      rfl

/-! ## Catalogs that can come about -/

/-- The default registry and the one that was given last are held. -/
structure Sound (c : Catalog) : Prop where
  default? : ∀ id, c.default? = some id → id < c.nextId
  given? : ∀ id, c.given? = some id → id < c.nextId
  registries : ∀ r ∈ c.registries, r.Reachable

theorem sound_initialWith (fs : Files) : (initialWith fs).Sound where
  default? _ h := nomatch h
  given? _ h := nomatch h
  registries r hr := by
    obtain rfl := List.mem_singleton.1 hr
    exact Registry.reachable_empty

theorem Sound.reachable (h : c.Sound) (id : Nat) : (c.registry id).Reachable := by
  unfold registry
  rw [List.getD_eq_getElem?_getD]
  cases hr : c.registries[id]? with
  | none => exact Registry.reachable_empty
  | some r => exact h.registries r (List.mem_of_getElem? hr)

theorem Notes.given?_lt (hnotes : Notes c step id o) {n : Nat} (hid : id < n)
    (hgiven : ∀ i, c.given? = some i → i < n) : ∀ i, o.next.given? = some i → i < n := by
  intro i hi
  by_cases hstep : step = .giveDefault
  · rw [(hnotes.giving hstep).2] at hi
    obtain rfl := Option.some.inj hi
    exact hid
  · rw [hnotes.other hstep] at hi
    exact hgiven i hi

theorem Sound.asked (h : c.Sound) (hasked : Asked c step o) : o.next.Sound := by
  have hle := hasked.extends.nextId_le
  have hgiven : ∀ i, c.given? = some i → i < o.next.nextId := by
    intro i hi
    have := h.given? i hi
    omega
  have hregistries := hasked.extends.reachable h.registries
  cases hasked with
  | missing _ _ ho =>
    rw [ho]
    exact h
  | @kept id hid hdefault _ hnotes =>
    have hlt := h.default? id hid
    refine ⟨fun i hi => ?_, hnotes.given?_lt (by omega) hgiven, hregistries⟩
    rw [hdefault] at hi
    obtain rfl := Option.some.inj hi
    omega
  | loaded _ _ hdefault hregs hnotes =>
    have hlt : c.nextId < o.next.nextId := by
      unfold nextId
      rw [hregs, List.length_append, List.length_singleton]
      omega
    refine ⟨fun i hi => ?_, hnotes.given?_lt hlt hgiven, hregistries⟩
    rw [hdefault] at hi
    obtain rfl := Option.some.inj hi
    exact hlt

theorem Sound.registerFields (h : c.Sound) (id : Nat) (fields : List (String × Json)) :
    (c.registerFields id fields).next.Sound := by
  obtain ⟨ds, hds⟩ := (h.reachable id).holds
  rcases registerFields_cases hds fields with ⟨d, -, hd, hregister⟩ | ⟨f, hregister⟩
  · rw [hregister]
    have hlength (r : Registry) : (c.registries.set id r).length = c.nextId := List.length_set
    refine ⟨fun i hi => ?_, fun i hi => ?_, fun r hr => ?_⟩
    · have := h.default? i hi
      rwa [← hlength] at this
    · have := h.given? i hi
      rwa [← hlength] at this
    · rcases List.mem_or_eq_of_mem_set hr with hr | rfl
      · exact h.registries r hr
      · exact (h.reachable id).extended hds hd
  · rw [hregister]
    exact h

theorem Sound.perform (h : c.Sound) (step : Step) : (c.perform step).next.Sound := by
  cases moves c step with
  | forgets _ hstep =>
    rw [hstep]
    exact ⟨nofun, h.given?, h.registries⟩
  | asks _ hasked => exact h.asked hasked
  | @registers id fields _ hstep =>
    rw [hstep]
    exact h.registerFields id fields
  | grows _ _ _ hgrows =>
    have hle := hgrows.registries.nextId_le
    refine ⟨fun i hi => ?_, fun i hi => ?_, hgrows.registries.reachable h.registries⟩
    · rw [hgrows.default?] at hi
      have := h.default? i hi
      omega
    · rw [hgrows.given?] at hi
      have := h.given? i hi
      omega

theorem Sound.after (h : c.Sound) (steps : List Step) : (c.after steps).Sound := by
  induction steps generalizing c with
  | nil => exact h
  | cons step rest ih => exact ih (h.perform step)

/-! ## What registries hold -/

/-- The definitions that steps register with the registry that has a number. -/
def registered (id : Nat) (c : Catalog) : List Step → List Definition
  | [] => []
  | step :: rest => (step.registers? c id).toList ++ registered id (c.perform step).next rest

theorem registers?_of_error {f : Fault} (h : (c.perform step).reply = .error f) (id : Nat) :
    step.registers? c id = none := by
  unfold Step.registers?
  rw [h]
  cases step.registration? c <;> rfl

theorem registers?_of_ok {fields : List (String × Json)} {reply : Reply} {number : Nat}
    (hstep : step.registration? c = some (number, fields))
    (h : (c.perform step).reply = .ok reply) (id : Nat) :
    step.registers? c id
      = if number = id then (Definition.ofFields fields).toOption else none := by
  unfold Step.registers?
  rw [hstep, h]

theorem registry_set (hid : id < c.nextId) (r : Registry) (number : Nat) :
    Catalog.registry { c with registries := c.registries.set number r } id
      = if number = id then r else c.registry id := by
  unfold nextId at hid
  unfold registry
  rw [List.getD_eq_getElem?_getD, List.getD_eq_getElem?_getD, List.getElem?_set]
  split
  · rename_i heq
    rw [if_pos (heq ▸ hid), Option.getD_some]
  · rfl

theorem holds_registerFields (h : c.Sound) (hid : id < c.nextId) (hds : (c.registry id).Holds ds)
    {fields : List (String × Json)} {number : Nat}
    (hstep : step.registration? c = some (number, fields))
    (hperform : c.perform step = c.registerFields number fields) :
    ((c.perform step).next.registry id).Holds (ds ++ (step.registers? c id).toList) := by
  -- The registry that is added to holds `ds` itself if it is the one in question.
  obtain ⟨es, hes, heq⟩ : ∃ es, (c.registry number).Holds es ∧ (number = id → es = ds) := by
    by_cases heq : number = id
    · exact ⟨ds, heq ▸ hds, fun _ => rfl⟩
    · obtain ⟨es, hes⟩ := (h.reachable number).holds
      exact ⟨es, hes, fun hn => absurd hn heq⟩
  rcases registerFields_cases hes fields with ⟨d, hd, hfresh, hregister⟩ | ⟨f, hregister⟩
  · have hreply : (c.perform step).reply = .ok .nothing := by rw [hperform, hregister]
    rw [registers?_of_ok hstep hreply, hperform, hregister, registry_set hid, hd]
    by_cases hnumber : number = id
    · rw [if_pos hnumber, if_pos hnumber]
      have hext := hes.extended hfresh
      rw [heq hnumber] at hext
      exact hext
    · rw [if_neg hnumber, if_neg hnumber, Option.toList_none, List.append_nil]
      exact hds
  · have hreply : (c.perform step).reply = .error f := by rw [hperform, hregister]
    rw [registers?_of_error hreply, Option.toList_none, List.append_nil, hperform, hregister]
    exact hds

/-- A registry that is held keeps its definitions, and takes the one that a step registers with
it. -/
theorem Sound.holds_perform (h : c.Sound) (hid : id < c.nextId) (hds : (c.registry id).Holds ds)
    (step : Step) :
    ((c.perform step).next.registry id).Holds (ds ++ (step.registers? c id).toList) := by
  cases moves c step with
  | @registers number fields hstep hperform => exact holds_registerFields h hid hds hstep hperform
  | forgets hstep hperform =>
    have hregistration : step.registration? c = none := hstep ▸ rfl
    have hnone := registers?_of_registration? hregistration id
    rw [hnone, Option.toList_none, List.append_nil, hperform]
    exact hds
  | asks hstep hasked =>
    have hnone := registers?_of_registration? (registration?_of_asks hstep c) id
    rw [hnone, Option.toList_none, List.append_nil, hasked.extends.registry_eq hid]
    exact hds
  | grows _ _ hnone hgrows =>
    rw [hnone id, Option.toList_none, List.append_nil, hgrows.registries.registry_eq hid]
    exact hds

end Measures.Catalog
