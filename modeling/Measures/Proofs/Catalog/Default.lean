import Mathlib.Data.List.Induction
import Measures.Proofs.Catalog.Sound
import Measures.Proofs.Catalog.Source

/-!
# The default registry

A default registry that was loaded is the default until it is forgotten, with the definitions it
was loaded with and those registered with it since. While none is kept, each step that asks for one
loads it afresh, from what was written last where the path that is set leads, or from the packaged
table.
-/

namespace Measures.Catalog

variable {c : Catalog} {fs : Files} {step : Step} {steps : List Step} {o : Outcome} {id : Nat}
  {ds : List Definition}

/-! ## From step to step -/

theorem asked_of_asks (h : step.asksDefault = true) (c : Catalog) :
    Asked c step (c.perform step) := by
  cases moves c step with
  | asks _ hasked => exact hasked
  | forgets hstep =>
    subst hstep
    cases h
  | registers hstep => cases hstep.symm.trans (registration?_of_asks h c)
  | grows _ hasks => cases h.symm.trans hasks

/-- The step finds no default registry, needs one, and there is one to be loaded. -/
structure Step.Loads (c : Catalog) (step : Step) (r : Registry) : Prop where
  missing : c.default? = none
  asks : step.asksDefault = true
  loaded : c.loadDefault = .ok r

theorem loads_perform {r : Registry} (h : step.Loads c r) :
    (c.perform step).next.default? = some c.nextId ∧
      (c.perform step).next.registries = c.registries ++ [r] ∧
      Notes c step c.nextId (c.perform step) := by
  cases asked_of_asks h.asks c with
  | missing _ hload => cases h.loaded.symm.trans hload
  | kept hid => cases h.missing.symm.trans hid
  | loaded _ hload hdefault hregistries hnotes =>
    obtain rfl := Except.ok.inj (h.loaded.symm.trans hload)
    exact ⟨hdefault, hregistries, hnotes⟩

theorem default?_registerFields (c : Catalog) (id : Nat) (fields : List (String × Json)) :
    (c.registerFields id fields).next.default? = c.default? ∧
      (c.registerFields id fields).next.given? = c.given? := by
  unfold registerFields
  cases Definition.ofFields fields <;> exact ⟨rfl, rfl⟩

/-- A default registry was kept before, or it is loaded now. -/
theorem default?_perform (h : (c.perform step).next.default? = some id) :
    step ≠ .forgetDefault ∧ (c.default? = some id ∨ ∃ r, step.Loads c r) := by
  cases moves c step with
  | forgets _ hperform =>
    rw [hperform] at h
    cases h
  | @registers number fields hstep hperform =>
    rw [hperform, (default?_registerFields c number fields).1] at h
    refine ⟨?_, .inl h⟩
    rintro rfl
    cases hstep
  | grows hforget _ _ hgrows =>
    rw [hgrows.default?] at h
    exact ⟨hforget, .inl h⟩
  | asks hstep hasked =>
    refine ⟨?_, ?_⟩
    · rintro rfl
      cases hstep
    · cases hasked with
      | missing _ _ ho =>
        rw [ho] at h
        exact .inl h
      | kept hid hdefault => exact .inl (hid.trans (hdefault.symm.trans h))
      | loaded hnone hload => exact .inr ⟨_, hnone, hstep, hload⟩

theorem Notes.given?_iff (hnotes : Notes c step id o) :
    o.next.given? = some id ↔ c.given? = some id ∨ step = .giveDefault := by
  by_cases hstep : step = .giveDefault
  · simp [hstep, (hnotes.giving hstep).2]
  · simp [hstep, hnotes.other hstep]

/-- A default registry is kept by any step but the one that forgets it. -/
theorem kept_perform (hid : c.default? = some id) (hforget : step ≠ .forgetDefault) :
    (c.perform step).next.default? = some id ∧
      ((c.perform step).next.given? = some id ↔ c.given? = some id ∨ step = .giveDefault) := by
  cases moves c step with
  | forgets hstep => exact absurd hstep hforget
  | @registers number fields hstep hperform =>
    have hne : step ≠ .giveDefault := by
      rintro rfl
      cases hstep
    obtain ⟨hdefault, hgiven⟩ := default?_registerFields c number fields
    simp [hperform, hdefault, hgiven, hid, hne]
  | grows _ hasks _ hgrows =>
    have hne : step ≠ .giveDefault := by
      rintro rfl
      cases hasks
    simp [hgrows.default?, hgrows.given?, hid, hne]
  | asks _ hasked =>
    cases hasked with
    | missing hnone => cases hid.symm.trans hnone
    | loaded hnone => cases hid.symm.trans hnone
    | kept hid' hdefault _ hnotes =>
      obtain rfl := Option.some.inj (hid.symm.trans hid')
      exact ⟨hdefault, hnotes.given?_iff⟩

/-! ## Runs -/

theorem after_append (c : Catalog) (steps later : List Step) :
    c.after (steps ++ later) = (c.after steps).after later :=
  List.foldl_append

theorem after_cons (c : Catalog) (step : Step) (later : List Step) :
    c.after (step :: later) = (c.perform step).next.after later := rfl

/-- While it is not forgotten, the default registry stays, with all that is registered with it. -/
theorem Sound.kept_after (h : c.Sound) (hid : c.default? = some id)
    (hds : (c.registry id).Holds ds) (hforget : Step.forgetDefault ∉ steps) :
    (c.after steps).default? = some id ∧
      ((c.after steps).registry id).Holds (ds ++ registered id c steps) ∧
      ((c.after steps).given? = some id ↔ c.given? = some id ∨ Step.giveDefault ∈ steps) := by
  induction steps generalizing c ds with
  | nil =>
    rw [registered, List.append_nil]
    exact ⟨hid, hds, by simp [Catalog.after]⟩
  | cons step rest ih =>
    obtain ⟨hne, hrest⟩ := not_or.1 (mt List.mem_cons.2 hforget)
    obtain ⟨hdefault, hgiven⟩ := kept_perform hid (Ne.symm hne)
    have hholds := h.holds_perform (h.default? id hid) hds step
    obtain ⟨hkept, hheld, hlater⟩ := ih (h.perform step) hdefault hholds hrest
    refine ⟨hkept, ?_, ?_⟩
    · rw [registered, ← List.append_assoc]
      exact hheld
    · rw [after_cons, hlater, hgiven, List.mem_cons, or_assoc, @eq_comm _ step]

/-- After `before` a step loaded a registry as the default one, and `later`, the steps since, have
not forgotten it. -/
structure LoadedSince (fs : Files) (steps before : List Step) (step : Step) (later : List Step)
    (r : Registry) : Prop where
  split : steps = before ++ step :: later
  loads : step.Loads ((initialWith fs).after before) r
  kept : Step.forgetDefault ∉ later

theorem exists_loadedSince (h : ((initialWith fs).after steps).default? = some id) :
    ∃ before step later r, LoadedSince fs steps before step later r := by
  induction steps using List.reverseRecOn generalizing id with
  | nil => cases h
  | append_singleton steps step ih =>
    rw [after_append] at h
    obtain ⟨hforget, hid | ⟨r, hloads⟩⟩ := default?_perform h
    · obtain ⟨before, first, later, r, hsplit, hloads, hkept⟩ := ih hid
      refine ⟨before, first, later ++ [step], r, ?_, hloads, ?_⟩
      · rw [hsplit, List.append_assoc, List.cons_append]
      · simpa [hkept] using Ne.symm hforget
    · exact ⟨steps, step, [], r, rfl, hloads, List.not_mem_nil⟩

/-- Whether a step makes a registry of a document, a file or definitions. -/
def Step.makesRegistry : Step → Bool
  | .ofDocument _ | .ofFieldLists _ | .ofFile _ _ | .ofSettings _ _ => true
  | _ => false

theorem perform_giveDefault_of_some (hid : c.default? = some id) :
    (c.perform .giveDefault).reply = .ok (.sameDefault (c.given? == some id)) := by
  have hasked : Asked c .giveDefault (c.perform .giveDefault) := asked_of_asks rfl c
  cases hasked with
  | missing hnone => cases hid.symm.trans hnone
  | loaded hnone => cases hid.symm.trans hnone
  | kept hid' _ _ hnotes =>
    obtain rfl := Option.some.inj (hid.symm.trans hid')
    exact (hnotes.giving rfl).1

theorem perform_of_missing {f : Fault} (hstep : step.asksDefault = true)
    (h : c.obtainDefault = .error f) : c.perform step = ⟨.error f, [], c⟩ := by
  cases asked_of_asks hstep c with
  | missing hnone hload ho =>
    rw [obtainDefault_of_none hnone, hload] at h
    cases h
    exact ho
  | kept hid =>
    rw [obtainDefault_of_some hid] at h
    cases h
  | loaded hnone hload =>
    rw [obtainDefault_of_none hnone, hload] at h
    cases h

theorem grows_of_makesRegistry (hstep : step.makesRegistry = true) (c : Catalog) :
    Grows c (c.perform step).next := by
  cases moves c step with
  | grows _ _ _ hgrows => exact hgrows
  | forgets h =>
    subst h
    cases hstep
  | registers h | asks h =>
    cases step with
    | ofDocument | ofFieldLists | ofFile | ofSettings => cases h
    | _ => cases hstep

/-- What the default registry is after a load that was not followed by a reset. -/
theorem obtainDefault_of_loadedSince {before later : List Step} {r : Registry}
    (h : LoadedSince fs steps before step later r) :
    let start := (initialWith fs).after before
    let c := (initialWith fs).after steps
    c.obtainDefault = .ok (start.nextId, [], c) ∧
      (∃ same, (c.perform .giveDefault).reply = .ok (.sameDefault same) ∧
        (same = true ↔ Step.giveDefault ∈ step :: later)) ∧
      ∃ ds, r.Holds ds ∧
        (c.registry start.nextId).Holds
          (ds ++ registered start.nextId (start.perform step).next later) := by
  intro start c
  have hsound : start.Sound := (sound_initialWith fs).after before
  obtain ⟨hdefault, hregistries, hnotes⟩ := loads_perform h.loads
  have hregistry : (start.perform step).next.registry start.nextId = r := by
    unfold registry
    rw [hregistries, List.getD_eq_getElem?_getD, nextId, List.getElem?_concat_length]
    rfl
  obtain ⟨doc, -, hr⟩ := bind_eq_ok.1 h.loads.loaded
  obtain ⟨ds, hds⟩ := (Registry.reachable_of_ofDocumentUnder hr).holds
  have hheld : ((start.perform step).next.registry start.nextId).Holds ds := by
    rw [hregistry]
    exact hds
  have hc : c = (start.perform step).next.after later := by
    rw [← after_cons, ← after_append, ← h.split]
  obtain ⟨hkept, hholds, hgiven⟩ :=
    (hsound.perform step).kept_after hdefault hheld h.kept
  rw [← hc] at hkept hholds hgiven
  refine ⟨obtainDefault_of_some hkept, ⟨_, perform_giveDefault_of_some hkept, ?_⟩, ds, hds, hholds⟩
  -- A registry that was given before has another number.
  have hother : start.given? ≠ some start.nextId := by
    intro hg
    exact Nat.lt_irrefl _ (hsound.given? _ hg)
  rw [beq_iff_eq, hgiven, hnotes.given?_iff, List.mem_cons, @eq_comm _ step, or_iff_right hother]

/-- In every run a default registry that was loaded is given until it is forgotten, as it was
loaded and with what was registered with it since; while there is none, it is loaded from the path
set, that is from what was written last where it leads, or else from the packaged table; where that
fails, nothing is kept; and registries that are made otherwise leave it alone. -/
theorem default_of_steps (fs : Files) (steps : List Step) :
    let c := (initialWith fs).after steps
    (∀ before step later r, LoadedSince fs steps before step later r →
      let start := (initialWith fs).after before
      c.obtainDefault = .ok (start.nextId, [], c) ∧
        (∃ same, (c.perform .giveDefault).reply = .ok (.sameDefault same) ∧
          (same = true ↔ Step.giveDefault ∈ step :: later)) ∧
        ∃ ds, r.Holds ds ∧
          (c.registry start.nextId).Holds
            (ds ++ registered start.nextId (start.perform step).next later)) ∧
    ((∀ before step later r, ¬ LoadedSince fs steps before step later r) →
      c.obtainDefault = (c.loadDefault.map fun r =>
        (c.nextId, [.loaded r.size c.source.text],
          { c.hold r with default? := some c.nextId })) ∧
        ∀ r, c.loadDefault = .ok r → (c.perform .giveDefault).reply = .ok (.sameDefault false)) ∧
    Sourced fs steps c ∧
    (∀ step f, step.asksDefault = true → c.obtainDefault = .error f →
      c.perform step = ⟨.error f, [], c⟩) ∧
    ∀ step, step.makesRegistry = true →
      (c.perform step).next.default? = c.default? ∧
        ∀ id < c.nextId, (c.perform step).next.registry id = c.registry id := by
  intro c
  refine ⟨fun before step later r h => obtainDefault_of_loadedSince h, fun hnone => ?_,
    sourced_after fs steps, fun step f => perform_of_missing, fun step hstep => ?_⟩
  · have hdefault : c.default? = none := by
      rw [Option.eq_none_iff_forall_ne_some]
      intro id hid
      obtain ⟨before, step, later, r, h⟩ := exists_loadedSince hid
      exact hnone before step later r h
    refine ⟨obtainDefault_of_none hdefault, fun r hr => ?_⟩
    have hloads : Step.giveDefault.Loads c r := ⟨hdefault, rfl, hr⟩
    obtain ⟨-, -, hnotes⟩ := loads_perform hloads
    rw [(hnotes.giving rfl).1, beq_eq_false_iff_ne.2]
    intro hg
    exact Nat.lt_irrefl _ (((sound_initialWith fs).after steps).given? _ hg)
  · have hgrows := grows_of_makesRegistry hstep c
    exact ⟨hgrows.default?, fun id hid => hgrows.registries.registry_eq hid⟩

def tabSize : Definition :=
  ⟨35, "tab-size", .ofList [.number, .length], none, by decide, by decide⟩

/-- A definition is registered with the default registry, and another one with a new registry. -/
def laterSteps : List Step := [
  .registerWith 1 [("index", .int 35), ("name", .str "tab-size"),
    ("categories", .arr [.str "NUMBER", .str "LENGTH"])],
  .ofFieldLists [],
  .register [("index", .int 36), ("name", .str "zoom"), ("categories", .arr [.str "NUMBER"])],
  .giveDefault]

def tabTable : String :=
  "\x7b\"schema_version\": \"1\", \"properties\": [\x7b\"index\": 35, \"name\": \"tab-size\", " ++
    "\"categories\": [\"NUMBER\", \"LENGTH\"]\x7d]\x7d"

theorem exists_tabTable : ∃ doc r, Json.parse tabTable = .ok doc ∧
    Registry.ofDocument doc = .ok r ∧ r.get (.int 35) = .ok tabSize := by
  have hfound : (do
      let doc ← (Json.parse tabTable).toOption
      let r ← (Registry.ofDocument doc).toOption
      (r.get (.int 35)).toOption) = some tabSize := by decide +kernel
  cases hdoc : Json.parse tabTable with
  | error f => simp [hdoc, Except.toOption] at hfound
  | ok doc =>
    cases hr : Registry.ofDocument doc with
    | error f => simp [hdoc, hr, Except.toOption] at hfound
    | ok r =>
      cases hd : r.get (.int 35) with
      | error f => simp [hdoc, hr, hd, Except.toOption] at hfound
      | ok d =>
        simp only [hdoc, hr, hd, Except.toOption, Option.bind_eq_bind, Option.bind_some,
          Option.some.injEq] at hfound
        exact ⟨doc, r, rfl, hr, by rw [hd, hfound]⟩

/-- A table is written outside of the working directory, and then replaces the packaged one. -/
def replacingSteps : List Step :=
  [.write "/srv/tab.json" tabTable.toUTF8, .replaceTable "../srv/./tab.json"]

/-- The packaged table is kept although the name that it was loaded for is not in it; and a table
that replaces it is found where it was written. -/
theorem default_of_steps_replaced :
    let fs := Files.empty ⟨["work"]⟩
    (∃ r, LoadedSince fs (.resolve "tab-size" :: laterSteps) [] (.resolve "tab-size") laterSteps r ∧
      ∃ ds, r.Holds ds ∧
        let c := (initialWith fs).after (.resolve "tab-size" :: laterSteps)
        c.obtainDefault = .ok (1, [], c) ∧ (c.registry 1).Holds (ds ++ [tabSize])) ∧
      ∃ r, ((initialWith fs).after replacingSteps).loadDefault = .ok r ∧
        r.get (.int 35) = .ok tabSize := by
  intro fs
  constructor
  · obtain ⟨r, hr⟩ := exists_packaged
    have hregistered : registered 1 ((initialWith fs).perform (.resolve "tab-size")).next laterSteps
        = [tabSize] := by decide +kernel
    have hload : (initialWith fs).loadDefault = .ok r := by
      have hreplacement : (initialWith fs).replacement = "" := rfl
      rw [loadDefault, defaultDocument, if_pos hreplacement, ok_bind]
      exact hr
    have h : LoadedSince fs (.resolve "tab-size" :: laterSteps) [] (.resolve "tab-size") laterSteps
        r := ⟨rfl, ⟨rfl, rfl, hload⟩, by simp [laterSteps]⟩
    obtain ⟨hobtain, -, ds, hds, hholds⟩ :=
      (default_of_steps fs (.resolve "tab-size" :: laterSteps)).1 [] _ _ r h
    have hfirst : ((initialWith fs).after []).nextId = 1 := rfl
    have hstart : (initialWith fs).after [] = initialWith fs := rfl
    rw [hfirst] at hobtain hholds
    rw [hstart, hregistered] at hholds
    exact ⟨r, h, ds, hds, hobtain, hholds⟩
  · obtain ⟨doc, r, hparse, hr, hd⟩ := exists_tabTable
    obtain ⟨-, -, hsourced, -⟩ := default_of_steps fs replacingSteps
    have hwritten :
        fs.LastWrite (writes replacingSteps) ⟨.ofText "/srv/tab.json", tabTable.toUTF8⟩ :=
      @Files.LastWrite.now fs [] _ ⟨_, rfl⟩
    have hleaves : fs.Leaves (writes replacingSteps)
        (((initialWith fs).after replacingSteps).files.place (.ofText "../srv/./tab.json"))
        tabTable.toUTF8 := .inl ⟨_, hwritten, by decide +kernel, rfl⟩
    have hloaded := (hsourced.written (by decide +kernel) r).2
      ⟨by decide +kernel, tabTable, doc, hleaves, hparse, hr⟩
    exact ⟨r, hloaded, hd⟩

end Measures.Catalog
