import Measures.Catalog.Step
import Measures.Proofs.Catalog.Loading
import Measures.Proofs.Property.Reachable

/-!
# What a step does to the registries

A step forgets the default registry, asks for it, adds a definition to one registry, or leaves the
default alone and every registry as it is. A registry that is made on the way comes after those
held.
-/

namespace Measures.Catalog

variable {c next : Catalog} {step : Step} {r : Registry}

/-! ## Kinds of steps -/

/-- Whether a step needs the default registry. -/
def Step.asksDefault : Step → Bool
  | .giveDefault | .resolve _ => true
  | .validate arguments false =>
    match arguments.make with
    | .ok q => q.category.isOk
    | .error _ => false
  | _ => false

/-- The number of the registry that a step adds to, and the fields of the definition. -/
def Step.registration? (c : Catalog) : Step → Option (Nat × List (String × Json))
  | .register fields => some (c.current, fields)
  | .registerWith id fields => some (id, fields)
  | _ => none

/-- The definition that a step registers with the registry that has a number. -/
def Step.registers? (c : Catalog) (id : Nat) (step : Step) : Option Definition :=
  match step.registration? c, (c.perform step).reply with
  | some (number, fields), .ok _ =>
    if number = id then (Definition.ofFields fields).toOption else none
  | _, _ => none

/-- Registries have come after those held. -/
def Extends (c next : Catalog) : Prop :=
  ∃ rs : List Registry, (∀ r ∈ rs, r.Reachable) ∧ next.registries = c.registries ++ rs

structure Grows (c next : Catalog) : Prop where
  default? : next.default? = c.default?
  given? : next.given? = c.given?
  registries : Extends c next

/-- A step that gives the default registry tells whether it is the one that was given last, and
takes note of it. -/
structure Notes (c : Catalog) (step : Step) (id : Nat) (o : Outcome) : Prop where
  giving : step = .giveDefault →
    o.reply = .ok (.sameDefault (c.given? == some id)) ∧ o.next.given? = some id
  other : step ≠ .giveDefault → o.next.given? = c.given?

/-- What asking for the default registry comes to: none can be loaded, one is kept already, or one
is loaded and kept. -/
inductive Asked (c : Catalog) (step : Step) (o : Outcome) : Prop
  | missing {f : Fault} (hnone : c.default? = none) (hload : c.loadDefault = .error f)
    (h : o = ⟨.error f, [], c⟩)
  | kept {id : Nat} (hid : c.default? = some id) (hdefault : o.next.default? = some id)
    (hregistries : o.next.registries = c.registries) (hnotes : Notes c step id o)
  | loaded {r : Registry} (hnone : c.default? = none) (hload : c.loadDefault = .ok r)
    (hdefault : o.next.default? = some c.nextId)
    (hregistries : o.next.registries = c.registries ++ [r]) (hnotes : Notes c step c.nextId o)

inductive Moves (c : Catalog) (step : Step) : Prop
  | forgets (hstep : step = .forgetDefault)
    (h : c.perform step = ⟨.ok .nothing, [], c.forgetDefault⟩)
  | asks (hstep : step.asksDefault = true) (h : Asked c step (c.perform step))
  | registers {id : Nat} {fields : List (String × Json)}
    (hstep : step.registration? c = some (id, fields))
    (h : c.perform step = c.registerFields id fields)
  | grows (hforget : step ≠ .forgetDefault) (hasks : step.asksDefault = false)
    (hregister : ∀ id, step.registers? c id = none) (h : Grows c (c.perform step).next)

/-! ## Steps that make registries -/

theorem extends_of_eq (h : next.registries = c.registries) : Extends c next :=
  ⟨[], nofun, by rw [h, List.append_nil]⟩

theorem extends_of_append (hr : r.Reachable) (h : next.registries = c.registries ++ [r]) :
    Extends c next :=
  ⟨[r], List.forall_mem_singleton.2 hr, h⟩

theorem Extends.nextId_le (h : Extends c next) : c.nextId ≤ next.nextId := by
  obtain ⟨rs, -, h⟩ := h
  unfold nextId
  rw [h, List.length_append]
  omega

theorem Extends.registry_eq (h : Extends c next) {id : Nat} (hid : id < c.nextId) :
    next.registry id = c.registry id := by
  obtain ⟨rs, -, h⟩ := h
  unfold nextId at hid
  unfold registry
  rw [h, List.getD_eq_getElem?_getD, List.getD_eq_getElem?_getD, List.getElem?_append_left hid]

theorem Extends.reachable (h : Extends c next) (hc : ∀ r ∈ c.registries, r.Reachable) :
    ∀ r ∈ next.registries, r.Reachable := by
  obtain ⟨rs, hrs, h⟩ := h
  rw [h]
  exact fun r hr => (List.mem_append.1 hr).elim (hc r) (hrs r)

theorem grows_of_eq (hdefault : next.default? = c.default?) (hgiven : next.given? = c.given?)
    (h : next.registries = c.registries) : Grows c next :=
  ⟨hdefault, hgiven, extends_of_eq h⟩

theorem grows_self (c : Catalog) : Grows c c := grows_of_eq rfl rfl rfl

theorem grows_holdCurrent (hr : r.Reachable) : Grows c (c.holdCurrent r) :=
  ⟨rfl, rfl, extends_of_append hr rfl⟩

theorem grows_quiet {α : Type} {e : Except Fault α} {f : α → Reply × Catalog}
    (he : ∀ a, e = .ok a → Grows c (f a).2) : Grows c (Outcome.quiet c (e.map f)).next := by
  cases h : e with
  | error fault => exact grows_self c
  | ok a => exact he a h

theorem reachable_of_ofSource {fs : Files} {source : Source} {name : String}
    {shared : SharedSchemas}
    (h : ((Registry.ofSource fs source name).perform shared).1 = .ok r) : r.Reachable := by
  unfold Registry.ofSource at h
  obtain ⟨doc, -, h⟩ := Action.perform_bind_eq_ok.1 h
  obtain ⟨s, -, h⟩ := Action.perform_bind_eq_ok.1 h
  exact Registry.reachable_of_ofDocumentUnder h

theorem grows_loadCurrent (c : Catalog) (source : Source) (name : String) :
    Grows c (c.loadCurrent source name).next := by
  unfold loadCurrent load
  rcases h : (Registry.ofSource c.files source name).perform c.shared with ⟨_ | r, shared⟩
  · exact grows_of_eq rfl rfl rfl
  · have hr : r.Reachable := reachable_of_ofSource (congrArg Prod.fst h)
    exact ⟨rfl, rfl, extends_of_append hr rfl⟩

theorem grows_loadSchema (c : Catalog) (name : String) (reply : SchemaDocument → Reply) :
    Grows c (c.loadSchema name reply).next := by
  unfold loadSchema
  cases c.loader? <;> exact grows_of_eq rfl rfl rfl

/-! ## Steps that ask for the default -/

theorem asked_of_askDefault {answer : Registry → Except Fault Reply}
    (hstep : step ≠ .giveDefault) (h : c.perform step = c.askDefault answer) :
    Asked c step (c.perform step) := by
  rw [h]
  unfold askDefault
  cases hid : c.default? with
  | some id =>
    rw [obtainDefault_of_some hid]
    exact .kept hid hid rfl ⟨fun heq => absurd heq hstep, fun _ => rfl⟩
  | none =>
    rw [obtainDefault_of_none hid]
    cases hload : c.loadDefault with
    | error f => exact .missing hid hload rfl
    | ok r => exact .loaded hid hload rfl rfl ⟨fun heq => absurd heq hstep, fun _ => rfl⟩

theorem asked_giveDefault (c : Catalog) : Asked c .giveDefault c.giveDefault := by
  unfold giveDefault
  cases hid : c.default? with
  | some id =>
    rw [obtainDefault_of_some hid]
    exact .kept hid hid rfl ⟨fun _ => ⟨rfl, rfl⟩, fun hne => absurd rfl hne⟩
  | none =>
    rw [obtainDefault_of_none hid]
    cases hload : c.loadDefault with
    | error f => exact .missing hid hload rfl
    | ok r => exact .loaded hid hload rfl rfl ⟨fun _ => ⟨rfl, rfl⟩, fun hne => absurd rfl hne⟩

theorem Asked.extends {o : Outcome} (h : Asked c step o) : Extends c o.next := by
  cases h with
  | missing _ _ h =>
    rw [h]
    exact extends_of_eq rfl
  | kept _ _ h => exact extends_of_eq h
  | loaded _ hload _ h =>
    obtain ⟨doc, -, hr⟩ := bind_eq_ok.1 hload
    exact extends_of_append (Registry.reachable_of_ofDocumentUnder hr) h

theorem registers?_of_registration? (h : step.registration? c = none) (id : Nat) :
    step.registers? c id = none := by
  unfold Step.registers?
  rw [h]

theorem registration?_of_asks (h : step.asksDefault = true) (c : Catalog) :
    step.registration? c = none := by
  cases step with
  | register fields | registerWith id fields => cases h
  | _ => rfl

/-! ## All steps -/

theorem moves_of_grows (hforget : step ≠ .forgetDefault) (hasks : step.asksDefault = false)
    (hregister : step.registration? c = none) (h : Grows c (c.perform step).next) : Moves c step :=
  .grows hforget hasks (registers?_of_registration? hregister) h

theorem moves_validate (c : Catalog) (arguments : ValueArguments) (useCurrent : Bool) :
    Moves c (.validate arguments useCurrent) := by
  cases hmake : arguments.make with
  | error f =>
    have hasks : (Step.validate arguments useCurrent).asksDefault = false := by
      cases useCurrent <;> simp [Step.asksDefault, hmake]
    refine moves_of_grows nofun hasks rfl ?_
    simp only [perform, hmake]
    exact grows_self c
  | ok q =>
    cases useCurrent with
    | true =>
      refine moves_of_grows nofun rfl rfl ?_
      simp only [perform, hmake]
      exact grows_self c
    | false =>
      have hperform : c.perform (.validate arguments false) = c.validateByDefault q := by
        simp [perform, hmake]
      cases hcategory : q.category with
      | error f =>
        have hasks : (Step.validate arguments false).asksDefault = false := by
          simp [Step.asksDefault, hmake, hcategory, Except.isOk, Except.toBool]
        refine moves_of_grows nofun hasks rfl ?_
        rw [hperform, validateByDefault, hcategory]
        exact grows_self c
      | ok category =>
        have hasks : (Step.validate arguments false).asksDefault = true := by
          simp [Step.asksDefault, hmake, hcategory, Except.isOk, Except.toBool]
        rw [validateByDefault, hcategory] at hperform
        exact .asks hasks (asked_of_askDefault nofun hperform)

/-- A validation leaves the registries as they are, also if it loads the default registry. -/
theorem registry_validate (c : Catalog) (arguments : ValueArguments) (useCurrent : Bool) {id : Nat}
    (hid : id < c.nextId) :
    (c.perform (.validate arguments useCurrent)).next.registry id = c.registry id := by
  cases moves_validate c arguments useCurrent with
  | forgets hstep => cases hstep
  | asks _ h => exact h.extends.registry_eq hid
  | registers hstep => cases hstep
  | grows _ _ _ h => exact h.registries.registry_eq hid

theorem moves_registerWith (c : Catalog) (id : Nat) (fields : List (String × Json)) :
    Moves c (.registerWith id fields) := by
  by_cases hid : id < c.nextId
  · exact .registers rfl (by rw [perform, if_pos hid])
  · have hperform : c.perform (.registerWith id fields)
        = ⟨.error (.unknownVariable (toString id)), [], c⟩ := by rw [perform, if_neg hid]
    refine .grows nofun rfl (fun number => ?_) ?_
    · simp [Step.registers?, Step.registration?, hperform]
    · rw [hperform]
      exact grows_self c

theorem moves (c : Catalog) (step : Step) : Moves c step := by
  cases step with
  | forgetDefault => exact .forgets rfl rfl
  | giveDefault => exact .asks rfl (asked_giveDefault c)
  | resolve name =>
    have hperform : c.perform (.resolve name) = c.resolveByDefault name := rfl
    rw [resolveByDefault] at hperform
    exact .asks rfl (asked_of_askDefault nofun hperform)
  | validate arguments useCurrent => exact moves_validate c arguments useCurrent
  | register fields => exact .registers rfl rfl
  | registerWith id fields => exact moves_registerWith c id fields
  | ofDocument doc =>
    refine moves_of_grows nofun rfl rfl (grows_quiet fun r hr => ?_)
    exact grows_holdCurrent (Registry.reachable_of_ofDocumentUnder hr)
  | ofFieldLists lists =>
    refine moves_of_grows nofun rfl rfl (grows_quiet fun r hr => ?_)
    exact grows_holdCurrent (Registry.reachable_of_ofFieldLists hr)
  | ofFile path schemaName => exact moves_of_grows nofun rfl rfl (grows_loadCurrent c _ _)
  | ofSettings path schemaName => exact moves_of_grows nofun rfl rfl (grows_loadCurrent c _ _)
  | define fields | look lookup | settings => exact moves_of_grows nofun rfl rfl (grows_self c)
  | write path content =>
    exact moves_of_grows nofun rfl rfl (grows_quiet fun fs _ => grows_of_eq rfl rfl rfl)
  | replaceTable path =>
    refine moves_of_grows nofun rfl rfl ?_
    simp only [perform]
    split
    · exact grows_of_eq rfl rfl rfl
    · exact grows_self c
  | openLoader directory =>
    refine moves_of_grows nofun rfl rfl ?_
    cases directory with
    | none => exact grows_of_eq rfl rfl rfl
    | some d =>
      simp only [perform]
      cases Loader.ofDirectory c.files (.ofText d) with
      | error f => exact grows_self c
      | ok l => exact grows_of_eq rfl rfl rfl
  | loadSchema name | check name doc => exact moves_of_grows nofun rfl rfl (grows_loadSchema c _ _)

end Measures.Catalog
