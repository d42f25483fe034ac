import Measures.Catalog.Step
import Measures.Proofs.Catalog.Files
import Measures.Proofs.Catalog.Loading

/-!
# Where the default registry is loaded from

Only steps that write touch the files. So a default registry that is loaded from a path comes from
what was written last at its place.
-/

namespace Measures.Catalog

variable {c next : Catalog} {step : Step} {id : Nat} {r : Registry}

/-! ## Writes and replacements -/

def Step.write? : Step → Option Files.Write
  | .write path content => some ⟨.ofText path, content⟩
  | _ => none

def writes (steps : List Step) : List Files.Write := steps.filterMap Step.write?

/-- The path that a step sets for the packaged table; one with a NUL cannot be set. -/
def Step.replacement? : Step → Option String
  | .replaceTable path => if (Path.ofText path).isPassable then some path else none
  | _ => none

/-! ## Steps -/

/-- What a default registry is loaded from stays. -/
structure SameSource (c next : Catalog) : Prop where
  files : next.files = c.files
  replacement : next.replacement = c.replacement

theorem sameSource_self (c : Catalog) : SameSource c c := ⟨rfl, rfl⟩

theorem sameSource_obtainDefault {records : List Record}
    (h : c.obtainDefault = .ok (id, records, next)) : SameSource c next := by
  unfold obtainDefault at h
  split at h
  · cases h
    exact sameSource_self c
  · obtain ⟨found, -, heq⟩ := map_eq_ok.1 h
    cases heq
    exact ⟨rfl, rfl⟩

theorem sameSource_askDefault (c : Catalog) (answer : Registry → Except Fault Reply) :
    SameSource c (c.askDefault answer).next := by
  unfold askDefault
  split
  · exact sameSource_self c
  · rename_i h
    exact sameSource_obtainDefault h

theorem sameSource_giveDefault (c : Catalog) : SameSource c c.giveDefault.next := by
  unfold giveDefault
  cases h : c.obtainDefault with
  | error f => exact sameSource_self c
  | ok found =>
    have hnext := sameSource_obtainDefault h
    exact ⟨hnext.files, hnext.replacement⟩

theorem sameSource_quiet {α : Type} {e : Except Fault α} {f : α → Reply × Catalog}
    (h : ∀ a, SameSource c (f a).2) : SameSource c (Outcome.quiet c (e.map f)).next := by
  cases e with
  | error fault => exact sameSource_self c
  | ok a => exact h a

theorem sameSource_loadCurrent (c : Catalog) (source : Source) (name : String) :
    SameSource c (c.loadCurrent source name).next := by
  unfold loadCurrent load
  rcases (Registry.ofSource c.files source name).perform c.shared with ⟨_ | _, shared⟩
  · exact ⟨rfl, rfl⟩
  · exact ⟨rfl, rfl⟩

theorem sameSource_loadSchema (c : Catalog) (name : String) (reply : SchemaDocument → Reply) :
    SameSource c (c.loadSchema name reply).next := by
  unfold loadSchema
  cases c.loader? <;> exact ⟨rfl, rfl⟩

theorem sameSource_registerFields (c : Catalog) (id : Nat) (fields : List (String × Json)) :
    SameSource c (c.registerFields id fields).next := by
  unfold registerFields
  cases Definition.ofFields fields <;> exact ⟨rfl, rfl⟩

theorem sameSource_validate (c : Catalog) (arguments : ValueArguments) (useCurrent : Bool) :
    SameSource c (c.perform (.validate arguments useCurrent)).next := by
  simp only [perform]
  split
  · exact sameSource_self c
  · split
    · exact sameSource_self c
    · unfold validateByDefault
      split
      · exact sameSource_self c
      · exact sameSource_askDefault c _

/-- The files after the write of a step was attempted, and the path that it sets. -/
structure Turns (c : Catalog) (step : Step) : Prop where
  files : (c.perform step).next.files = (step.write?.map c.files.attempt).getD c.files
  replacement : (c.perform step).next.replacement = step.replacement?.getD c.replacement

theorem SameSource.turns (hwrite : step.write? = none) (hset : step.replacement? = none)
    (h : SameSource c (c.perform step).next) : Turns c step := by
  constructor
  · rw [hwrite, h.files]
    rfl
  · rw [hset, h.replacement]
    rfl

theorem turns (c : Catalog) (step : Step) : Turns c step := by
  cases step with
  | write path content =>
    constructor <;> simp only [perform, Step.write?, Option.map_some, Files.attempt]
    · cases c.files.write (.ofText path) content <;> rfl
    · cases c.files.write (.ofText path) content <;> rfl
  | replaceTable path =>
    constructor <;> simp only [perform, Step.replacement?]
    · split <;> rfl
    · split <;> rfl
  | ofDocument doc | ofFieldLists lists =>
    exact SameSource.turns rfl rfl (sameSource_quiet fun _ => ⟨rfl, rfl⟩)
  | ofFile path name | ofSettings path name =>
    exact SameSource.turns rfl rfl (sameSource_loadCurrent c _ _)
  | giveDefault => exact SameSource.turns rfl rfl (sameSource_giveDefault c)
  | register fields => exact SameSource.turns rfl rfl (sameSource_registerFields c _ fields)
  | registerWith id fields =>
    refine SameSource.turns rfl rfl ?_
    simp only [perform]
    split
    · exact sameSource_registerFields c id fields
    · exact sameSource_self c
  | resolve name => exact SameSource.turns rfl rfl (sameSource_askDefault c _)
  | validate arguments useCurrent =>
    exact SameSource.turns rfl rfl (sameSource_validate c arguments useCurrent)
  | openLoader directory =>
    refine SameSource.turns rfl rfl ?_
    cases directory with
    | none => exact ⟨rfl, rfl⟩
    | some d =>
      simp only [perform]
      cases Loader.ofDirectory c.files (.ofText d) <;> exact ⟨rfl, rfl⟩
  | loadSchema name | check name doc => exact SameSource.turns rfl rfl (sameSource_loadSchema c _ _)
  | forgetDefault | define fields | look lookup | settings => exact ⟨rfl, rfl⟩

/-! ## Runs -/

theorem files_after (c : Catalog) (steps : List Step) :
    (c.after steps).files = c.files.after (writes steps) := by
  induction steps generalizing c with
  | nil => rfl
  | cons step rest ih =>
    have hstep := (turns c step).files
    have hrest := ih (c.perform step).next
    unfold after writes at hrest ⊢
    rw [List.foldl_cons, hrest, hstep, List.filterMap_cons]
    cases step.write? <;> rfl

theorem replacement_after (c : Catalog) (steps : List Step) :
    (c.after steps).replacement =
      (steps.filterMap Step.replacement?).getLast?.getD c.replacement := by
  induction steps generalizing c with
  | nil => rfl
  | cons step rest ih =>
    have hstep := (turns c step).replacement
    have hrest := ih (c.perform step).next
    unfold after at hrest ⊢
    rw [List.foldl_cons, hrest, hstep, List.filterMap_cons]
    cases step.replacement? with
    | none => rfl
    | some path => simp [List.getLast?_cons]

/-! ## What is loaded -/

/-- What a catalog loads as its default registry after steps that began with some files. -/
structure Sourced (fs : Files) (steps : List Step) (c : Catalog) : Prop where
  replacement : c.replacement = (steps.filterMap Step.replacement?).getLast?.getD ""
  packaged : c.replacement = "" → c.loadDefault = Registry.packaged
  /-- The path of a file that was written leads to it. -/
  there : ∀ w, fs.LastWrite (writes steps) w → c.files.isThere w.path = true
  /-- A path that led somewhere in the beginning leads there still. -/
  still : ∀ p, fs.isThere p = true → c.files.isThere p = true
  /-- From a path comes the document that stands at its place, written there last. -/
  written : c.replacement ≠ "" → ∀ r, c.loadDefault = .ok r ↔
    c.files.isThere (.ofText c.replacement) = true ∧
      ∃ text doc, fs.Leaves (writes steps) (c.files.place (.ofText c.replacement)) text.toUTF8 ∧
        Json.parse text = .ok doc ∧ Registry.ofDocument doc = .ok r

theorem sourced_after (fs : Files) (steps : List Step) :
    Sourced fs steps ((initialWith fs).after steps) := by
  have hfiles : ((initialWith fs).after steps).files = fs.after (writes steps) :=
    files_after (initialWith fs) steps
  refine ⟨replacement_after (initialWith fs) steps, fun h => ?_, fun w hw => ?_, fun p hp => ?_,
    fun h r => ?_⟩
  · unfold loadDefault defaultDocument
    rw [if_pos h, ok_bind, Registry.packaged]
  · rw [hfiles]
    exact hw.isThere
  · rw [hfiles]
    exact Files.isThere_after hp (writes steps)
  · unfold loadDefault defaultDocument
    rw [if_neg h, bind_eq_ok, hfiles]
    simp only [Files.readJson_after_iff]
    constructor
    · rintro ⟨doc, ⟨hthere, text, hleaves, hparse⟩, hr⟩
      exact ⟨hthere, text, doc, hleaves, hparse, hr⟩
    · rintro ⟨hthere, text, doc, hleaves, hparse, hr⟩
      exact ⟨doc, ⟨hthere, text, hleaves, hparse⟩, hr⟩

end Measures.Catalog
