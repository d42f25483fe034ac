import Mathlib.Data.List.Induction
import Measures.Catalog.Loader
import Measures.Proofs.Catalog.Files

/-!
# What a loader keeps

A schema that was loaded once is loaded again as it was, whatever becomes of its file. Where loading
fails nothing is kept, and the next attempt reads the file as it is then: as it was written last.
-/

namespace Measures.Loader

variable {α : Type} {accept : Json → Option α} {fs : Files} {name other : String} {s : α}
  {l : Loader α}

/-! ## Loading among writes -/

/-- A loader and the files that it reads. -/
structure Site (α : Type) where
  files : Files
  loader : Loader α

inductive Event where
  | write (path : Path) (content : ByteArray)
  | load (name : String)

/-- Loads a schema from the files as they are. -/
def Site.loading (accept : Json → Option α) (name : String) : Action (Site α) α := do
  let site ← getThe (Site α)
  Action.within Site.loader (fun site l => { site with loader := l })
    (load accept site.files name)

def Event.act (accept : Json → Option α) : Event → Action (Site α) Unit
  | .write path content => do
    let site ← getThe (Site α)
    let files ← site.files.write path content
    modify fun site => { site with files }
  | .load name => do
    let _ ← Site.loading accept name

variable {site : Site α} {place : SchemaPlace} {event : Event} {events : List Event}

/-- The site after events, whether they failed or not. -/
abbrev Site.after (accept : Json → Option α) (site : Site α) (events : List Event) : Site α :=
  Action.after (Event.act accept) site events

/-- What loading a schema gives, and the site after it. -/
def Site.load (accept : Json → Option α) (site : Site α) (name : String) :
    Except Fault α × Site α :=
  (loading accept name).perform site

theorem Site.load_of_kept (accept : Json → Option α) (h : site.loader.kept? name = some s) :
    site.load accept name = (.ok s, site) := by
  unfold Site.load loading
  rw [Action.perform_bind, Action.perform_get]
  simp only [Action.perform_within, perform_load_of_kept h]

theorem Site.load_of_new (accept : Json → Option α) (h : site.loader.kept? name = none) :
    site.load accept name = match site.loader.place.fetch accept site.files name with
      | .ok s => (.ok s, { site with loader := site.loader.keep name s })
      | .error f => (.error f, site) := by
  unfold Site.load loading
  rw [Action.perform_bind, Action.perform_get]
  simp only [Action.perform_within, perform_load_of_new h]
  cases site.loader.place.fetch accept site.files name <;> rfl

theorem perform_load (accept : Json → Option α) (site : Site α) (name : String) :
    (((Event.load name).act accept).perform site).2 = (site.load accept name).2 := by
  unfold Site.load Event.act
  rw [Action.perform_bind]
  cases (Site.loading accept name).perform site with
  | mk result next => cases result <;> rfl

theorem perform_write_loader (path : Path) (content : ByteArray) :
    (((Event.write path content).act accept).perform site).2.loader = site.loader := by
  unfold Event.act
  rw [Action.perform_bind, Action.perform_get]
  simp only [Action.perform_bind, Action.perform_liftM]
  cases site.files.write path content <;> rfl

/-- All that an event can do to a loader: nothing, or it keeps what is fetched under a name that was
not kept. -/
theorem loader_cases (accept : Json → Option α) (site : Site α) (event : Event) :
    ((event.act accept).perform site).2.loader = site.loader ∨
      ∃ name s, event = .load name ∧ site.loader.kept? name = none ∧
        site.loader.place.fetch accept site.files name = .ok s ∧
        ((event.act accept).perform site).2.loader = site.loader.keep name s := by
  cases event with
  | write path content => exact .inl (perform_write_loader path content)
  | load name =>
    cases hkept : site.loader.kept? name with
    | some s => exact .inl (by rw [perform_load, Site.load_of_kept accept hkept])
    | none =>
      rw [perform_load, Site.load_of_new accept hkept]
      cases hfetch : site.loader.place.fetch accept site.files name with
      | error f => exact .inl rfl
      | ok s => exact .inr ⟨name, s, rfl, hkept, hfetch, rfl⟩

theorem place_after (accept : Json → Option α) (site : Site α) (events : List Event) :
    (site.after accept events).loader.place = site.loader.place := by
  refine Action.keep_after (P := fun t : Site α => t.loader.place = site.loader.place) ?_ rfl
  intro event _ t ht
  rcases loader_cases accept t event with h | ⟨name, s, -, -, -, h⟩
  · rw [h, ht]
  · rw [h, ← ht]
    rfl

theorem kept_after (h : site.loader.kept? name = some s) (events : List Event) :
    (site.after accept events).loader.kept? name = some s := by
  refine Action.keep_after (P := fun t : Site α => t.loader.kept? name = some s) ?_ h
  intro event _ t ht
  rcases loader_cases accept t event with h | ⟨other, x, -, hnew, -, h⟩
  · rw [h, ht]
  · have hne : name ≠ other := by
      rintro rfl
      cases hnew.symm.trans ht
    rw [h, kept?_keep, if_neg hne, ht]

theorem new_after (h : site.loader.kept? name = none) (hevents : .load name ∉ events) :
    (site.after accept events).loader.kept? name = none := by
  refine Action.keep_after (P := fun t : Site α => t.loader.kept? name = none) ?_ h
  intro event hevent t ht
  rcases loader_cases accept t event with h | ⟨other, x, rfl, -, -, h⟩
  · rw [h, ht]
  · have hne : name ≠ other := by
      rintro rfl
      exact hevents hevent
    rw [h, kept?_keep, if_neg hne, ht]

/-- A schema that is kept was fetched by an event before. -/
theorem fetched_of_kept (hnew : site.loader.kept? name = none)
    (h : (site.after accept events).loader.kept? name = some s) :
    ∃ earlier later, events = earlier ++ .load name :: later ∧
      site.loader.place.fetch accept (site.after accept earlier).files name = .ok s := by
  induction events using List.reverseRecOn with
  | nil => cases hnew.symm.trans h
  | append_singleton before event ih =>
    rw [Site.after, Action.after_append] at h
    -- Either it was kept before the last event, or the last event fetched it.
    have hbefore (hkept : (site.after accept before).loader.kept? name = some s) :
        ∃ earlier later, before ++ [event] = earlier ++ .load name :: later ∧
          site.loader.place.fetch accept (site.after accept earlier).files name = .ok s := by
      obtain ⟨earlier, later, rfl, hfetch⟩ := ih hkept
      exact ⟨earlier, later ++ [event], by simp, hfetch⟩
    rcases loader_cases accept (site.after accept before) event with
      hsame | ⟨other, x, rfl, -, hfetch, hkeep⟩
    · exact hbefore (hsame ▸ h)
    · rw [Action.after_cons, Action.after_nil, hkeep, kept?_keep] at h
      split at h
      · next heq =>
        subst heq
        obtain rfl := Option.some.inj h
        rw [place_after] at hfetch
        exact ⟨before, [], rfl, hfetch⟩
      · exact hbefore h

theorem fetch_eq_ok_iff :
    place.fetch accept fs name = .ok s ↔
      ∃ j, place.readSource fs name = .ok j ∧ accept j = some s := by
  rw [SchemaPlace.fetch, bind_eq_ok]
  refine exists_congr fun j => and_congr_right fun _ => ?_
  cases accept j <;> simp [pure, Except.pure]

theorem fetch_eq_error_iff {f : Fault} :
    place.fetch accept fs name = .error f ↔ place.readSource fs name = .error f ∨
      ∃ j, place.readSource fs name = .ok j ∧ accept j = none ∧ .invalidSchema name = f := by
  rw [SchemaPlace.fetch, bind_eq_error]
  refine or_congr_right (exists_congr fun j => and_congr_right fun _ => ?_)
  cases accept j <;> simp [pure, Except.pure]

/-! ## Files among loads -/

def Event.write? : Event → Option Files.Write
  | .write path content => some ⟨path, content⟩
  | .load _ => none

def writes (events : List Event) : List Files.Write := events.filterMap Event.write?

theorem Site.files_load (accept : Json → Option α) (site : Site α) (name : String) :
    (site.load accept name).2.files = site.files := by
  cases hkept : site.loader.kept? name with
  | some s => rw [load_of_kept accept hkept]
  | none =>
    rw [load_of_new accept hkept]
    cases site.loader.place.fetch accept site.files name <;> rfl

/-- An event attempts its write, and otherwise leaves the files alone. -/
theorem files_act (accept : Json → Option α) (site : Site α) (event : Event) :
    ((event.act accept).perform site).2.files
      = (event.write?.map site.files.attempt).getD site.files := by
  cases event with
  | load name => rw [perform_load, Site.files_load, Event.write?, Option.map_none, Option.getD_none]
  | write path content =>
    unfold Event.act Event.write? Files.attempt
    rw [Action.perform_bind, Action.perform_get]
    simp only [Action.perform_bind, Action.perform_liftM, Option.map_some]
    cases site.files.write path content <;> rfl

theorem files_after (accept : Json → Option α) (site : Site α) (events : List Event) :
    (site.after accept events).files = site.files.after (writes events) := by
  induction events generalizing site with
  | nil => rfl
  | cons event rest ih =>
    unfold writes at ih ⊢
    rw [Site.after, Action.after_cons, ih, files_act, List.filterMap_cons]
    cases event.write? <;> rfl

/-- What a schema is read from: what was written last at the place of its file. -/
theorem readSource_after_iff {ws : List Files.Write} {j : Json}
    (h : place.isPackaged name = false) :
    place.readSource (fs.after ws) name = .ok j ↔
      (fs.after ws).isThere (place.file name) = true ∧
        ∃ text, fs.Leaves ws ((fs.after ws).place (place.file name)) text.toUTF8 ∧
          Json.parse text = .ok j := by
  rw [← Files.readJson_after_iff]
  unfold SchemaPlace.readSource
  simp only [h, Bool.false_eq_true, if_false]
  split
  · rfl
  · rename_i habsent
    refine iff_of_false nofun fun h => habsent ?_
    exact (Files.readJson_eq_ok_iff.1 h).1

/-! ## Both together -/

theorem Site.load_eq_ok (h : (site.load accept name).1 = .ok s) :
    (site.load accept name).2.loader.kept? name = some s ∧
      (site.loader.kept? name = some s ∨
        site.loader.place.fetch accept site.files name = .ok s) := by
  cases hkept : site.loader.kept? name with
  | some x =>
    rw [load_of_kept accept hkept] at h ⊢
    cases h
    exact ⟨hkept, .inl rfl⟩
  | none =>
    rw [load_of_new accept hkept] at h ⊢
    cases hfetch : site.loader.place.fetch accept site.files name with
    | error f =>
      rw [hfetch] at h
      cases h
    | ok x =>
      rw [hfetch] at h
      cases h
      exact ⟨by rw [kept?_keep, if_pos rfl], .inr rfl⟩

theorem Site.load_eq_error {f : Fault} (h : (site.load accept name).1 = .error f) :
    site.load accept name = (.error f, site) ∧ site.loader.kept? name = none ∧
      site.loader.place.fetch accept site.files name = .error f := by
  cases hkept : site.loader.kept? name with
  | some x =>
    rw [load_of_kept accept hkept] at h
    cases h
  | none =>
    rw [load_of_new accept hkept] at h ⊢
    cases hfetch : site.loader.place.fetch accept site.files name with
    | error f =>
      rw [hfetch] at h
      cases h
      exact ⟨rfl, rfl, rfl⟩
    | ok x =>
      rw [hfetch] at h
      cases h

theorem load_again (h : (site.load accept name).1 = .ok s) (between : List Event) :
    (((site.load accept name).2.after accept between).load accept name).1 = .ok s := by
  rw [Site.load_of_kept accept (kept_after (Site.load_eq_ok h).1 between)]

/-- A schema that is loaded was fetched then or by an event before. -/
theorem fetched_of_load (hnew : site.loader.kept? name = none)
    (h : ((site.after accept events).load accept name).1 = .ok s) :
    ∃ earlier later, events ++ [.load name] = earlier ++ .load name :: later ∧
      site.loader.place.fetch accept (site.after accept earlier).files name = .ok s := by
  obtain ⟨-, hkept | hfetch⟩ := Site.load_eq_ok h
  · obtain ⟨earlier, later, rfl, hfetch⟩ := fetched_of_kept hnew hkept
    exact ⟨earlier, later ++ [.load name], by simp, hfetch⟩
  · rw [place_after] at hfetch
    exact ⟨events, [], rfl, hfetch⟩

/-- After a failure the next attempt reads the file as it is then. -/
theorem load_retried {f : Fault} (h : (site.load accept name).1 = .error f)
    {between : List Event} (hbetween : .load name ∉ between) :
    ((site.after accept between).load accept name).1
      = site.loader.place.fetch accept (site.after accept between).files name := by
  have hnew : (site.after accept between).loader.kept? name = none :=
    new_after (Site.load_eq_error h).2.1 hbetween
  rw [Site.load_of_new accept hnew, place_after]
  cases site.loader.place.fetch accept (site.after accept between).files name <;> rfl

/-- In every run of writes and loads, a schema that was loaded is loaded again as it was, and it
comes from what its file held when it was fetched, which was accepted then. A failure leaves
everything as it was, and until the name is loaded again only what its file holds counts. That is
what was written last at its place, and every path of a file that was written leads to it. -/
theorem load_among_writes (accept : Json → Option α) (place : SchemaPlace) (fs : Files)
    (before : List Event) (name : String) :
    let start : Site α := ⟨fs, ⟨place, []⟩⟩
    let site := start.after accept before
    let o := site.load accept name
    (∀ s, o.1 = .ok s →
      (∀ between, ((o.2.after accept between).load accept name).1 = .ok s) ∧
      ∃ earlier later j, before ++ [.load name] = earlier ++ .load name :: later ∧
        place.readSource (start.after accept earlier).files name = .ok j ∧ accept j = some s) ∧
    (∀ f, o.1 = .error f → o.2 = site ∧
      (place.readSource site.files name = .error f ∨
        ∃ j, place.readSource site.files name = .ok j ∧ accept j = none ∧
          .invalidSchema name = f) ∧
      ∀ between, .load name ∉ between → ((site.after accept between).load accept name).1
        = place.fetch accept (site.after accept between).files name) ∧
    (∀ w, fs.LastWrite (writes before) w → site.files.isThere w.path = true) ∧
    (place.isPackaged name = false → ∀ j,
      place.readSource site.files name = .ok j ↔ site.files.isThere (place.file name) = true ∧
        ∃ text, fs.Leaves (writes before) (site.files.place (place.file name)) text.toUTF8 ∧
          Json.parse text = .ok j) := by
  intro start site o
  have hplace : site.loader.place = place := place_after accept start before
  have hfiles : site.files = fs.after (writes before) := files_after accept start before
  refine ⟨fun s hs => ⟨load_again hs, ?_⟩, fun f hf => ?_, fun w hw => hfiles ▸ hw.isThere,
    fun hfile j => ?_⟩
  · obtain ⟨earlier, later, heq, hfetch⟩ := fetched_of_load rfl hs
    obtain ⟨j, hj, haccept⟩ := fetch_eq_ok_iff.1 hfetch
    exact ⟨earlier, later, j, heq, hj, haccept⟩
  · obtain ⟨ho, -, hfetch⟩ := Site.load_eq_error hf
    rw [hplace] at hfetch
    refine ⟨congrArg Prod.snd ho, fetch_eq_error_iff.1 hfetch, fun between hbetween => ?_⟩
    rw [load_retried hf hbetween, hplace]
  · rw [hfiles]
    exact readSource_after_iff hfile

def unitsFile : Path := ⟨"/", ["schemas", "units.json"]⟩

/-- Another path of the same file, through a directory that is made for it. -/
def unitsDetour : Path := ⟨"/", ["srv", "..", "schemas", "units.json"]⟩

theorem file_units : SchemaPlace.file (.directory ⟨"/", ["schemas"]⟩) "units" = unitsFile := by
  decide +kernel

/-- The file holds a number first, which is no schema, and then an empty object, which is one. -/
theorem load_among_writes_replaced :
    let accept (j : Json) : Option Json := (SchemaDocument.ofJson? j).map (·.source)
    let start : Site Json := ⟨.empty ⟨["home"]⟩, ⟨.directory ⟨"/", ["schemas"]⟩, []⟩⟩
    let spoilt := start.after accept [.write unitsDetour "3".toUTF8]
    let mend : Event := .write unitsFile "\x7b\x7d".toUTF8
    (spoilt.load accept "units").1 = .error (.invalidSchema "units") ∧
      ((spoilt.after accept [mend]).load accept "units").1 = .ok (.obj []) ∧
      ∀ between, ((((spoilt.after accept [mend]).load accept "units").2.after accept between).load
        accept "units").1 = .ok (.obj []) := by
  intro accept start spoilt mend
  let spoil : Event := .write unitsDetour "3".toUTF8
  obtain ⟨-, hfails, -, hspoilt⟩ :=
    load_among_writes accept start.loader.place start.files [spoil] "units"
  obtain ⟨hkeeps, -, hthere, hread⟩ :=
    load_among_writes accept start.loader.place start.files [spoil, mend] "units"
  -- What stands at the place of the schema, by way of either path.
  have hthree : start.files.LastWrite (writes [spoil]) ⟨unitsDetour, "3".toUTF8⟩ :=
    @Files.LastWrite.now start.files [] _ ⟨_, rfl⟩
  have hobject : start.files.LastWrite (writes [spoil, mend]) ⟨unitsFile, "\x7b\x7d".toUTF8⟩ :=
    @Files.LastWrite.now start.files (writes [spoil]) _ ⟨_, rfl⟩
  have hnumber : start.loader.place.readSource spoilt.files "units" = .ok (.int 3) := by
    refine (hspoilt rfl (.int 3)).2 ?_
    rw [file_units]
    refine ⟨?_, "3", .inl ⟨_, hthree, ?_, rfl⟩, rfl⟩
    · rw [files_after]
      decide +kernel
    · rw [files_after, Files.place_after]
      decide +kernel
  have hempty : start.loader.place.readSource (spoilt.after accept [mend]).files "units"
      = .ok (.obj []) := by
    refine (hread rfl (.obj [])).2 ?_
    rw [file_units]
    exact ⟨hthere _ hobject, "\x7b\x7d", .inl ⟨_, hobject, (files_after ..).symm ▸ rfl, rfl⟩, rfl⟩
  have hfailed : (spoilt.load accept "units").1 = .error (.invalidSchema "units") := by
    have hfetch : spoilt.loader.place.fetch accept spoilt.files "units"
        = .error (.invalidSchema "units") :=
      fetch_eq_error_iff.2 (.inr ⟨.int 3, hnumber, rfl, rfl⟩)
    rw [Site.load_of_new accept rfl, hfetch]
  have hloaded : ((spoilt.after accept [mend]).load accept "units").1 = .ok (.obj []) := by
    obtain ⟨-, -, hretried⟩ := hfails _ hfailed
    refine (hretried [mend] (by simp [mend])).trans ?_
    exact fetch_eq_ok_iff.2 ⟨.obj [], hempty, rfl⟩
  obtain ⟨hkept, -⟩ := hkeeps _ hloaded
  exact ⟨hfailed, hloaded, hkept⟩

end Measures.Loader
