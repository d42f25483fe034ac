import Mathlib.Data.List.Induction
import Measures.Catalog.Files
import Measures.Proofs.Failure

/-!
# What is read is what was written last

A write puts a file at one place and makes directories where nothing was. A path that led somewhere
leads there still, and what is read there is what the last successful write has put there.
-/

namespace Measures.Files

variable {fs next : Files} {p q : Path} {content : ByteArray} {place other : Place}
  {parts : List String} {node : Node} {j : Json}

/-! ## One change -/

/-- A change shows where no directory is. -/
theorem node?_set (h : fs.node? place ≠ some .directory) (node : Node) (other : Place) :
    (fs.set place node).node? other = if other = place then some node else fs.node? other := by
  have hplace : place.isOnWay fs.home = false := by
    unfold node? at h
    simp_all
  unfold node? set
  simp only [Dictionary.lookup_set]
  by_cases hother : other = place <;> simp [hother, hplace]

theorem place_eq_of_home (h : next.home = fs.home) (p : Path) : next.place p = fs.place p := by
  simp only [Files.place, start, h]

/-! ## Following a path -/

theorem node?_of_follow (h : fs.follow place parts = .there node) :
    fs.node? (parts.foldl Place.step place) = some node := by
  induction parts generalizing place with
  | nil =>
    unfold follow at h
    split at h
    · cases h
      assumption
    · cases h
  | cons part rest ih =>
    unfold follow at h
    split at h
    · exact ih h
    · cases h
    · cases h

/-- A way stays open while directories stay, whatever comes to its end. -/
theorem follow_of_keep
    (hkeep : ∀ other, fs.node? other = some .directory → next.node? other = some .directory)
    (h : fs.follow place parts = .there node) {last : Node}
    (hlast : next.node? (parts.foldl Place.step place) = some last) :
    next.follow place parts = .there last := by
  induction parts generalizing place with
  | nil =>
    unfold follow
    rw [show next.node? place = some last from hlast]
  | cons part rest ih =>
    unfold follow at h
    split at h
    · rename_i hplace
      unfold follow
      rw [hkeep place hplace]
      exact ih h hlast
    · cases h
    · cases h

/-! ## What a write does -/

/-- What is there after a file was put at a place: this file, what was there elsewhere, and new
directories. -/
structure Written (fs : Files) (place : Place) (content : ByteArray) (next : Files) : Prop where
  home : next.home = fs.home
  free : fs.node? place ≠ some .directory
  file : next.node? place = some (.file content)
  keeps : ∀ other node, other ≠ place → fs.node? other = some node → next.node? other = some node
  makes : ∀ other node, other ≠ place → next.node? other = some node →
    fs.node? other = some node ∨ node = .directory

theorem written_set (h : fs.node? place ≠ some .directory) :
    Written fs place content (fs.set place (.file content)) where
  home := rfl
  free := h
  file := by rw [node?_set h, if_pos rfl]
  keeps other node hne hnode := by rw [node?_set h, if_neg hne, hnode]
  makes other node hne hnode := by
    rw [node?_set h, if_neg hne] at hnode
    exact .inl hnode

/-- A directory that is made first only adds to what is there. -/
theorem Written.of_directory (hnone : fs.node? other = none)
    (h : Written (fs.set other .directory) place content next) : Written fs place content next := by
  have hset (found : Place) : (fs.set other .directory).node? found
      = if found = other then some .directory else fs.node? found :=
    node?_set (by simp [hnone]) .directory found
  have hne : place ≠ other := by
    rintro rfl
    exact h.free (by rw [hset, if_pos rfl])
  refine ⟨h.home, ?_, h.file, fun found node hfound hnode => ?_, fun found node hfound hnode => ?_⟩
  · have hfree := h.free
    rwa [hset, if_neg hne] at hfree
  · refine h.keeps found node hfound ?_
    rw [hset, if_neg ?_, hnode]
    rintro rfl
    cases hnone.symm.trans hnode
  · have hmade := h.makes found node hfound hnode
    rw [hset] at hmade
    split at hmade
    · right
      rcases hmade with heq | heq
      · exact (Option.some.inj heq).symm
      · exact heq
    · exact hmade

theorem Written.keeps_directory (h : Written fs place content next)
    (hother : fs.node? other = some .directory) : next.node? other = some .directory := by
  refine h.keeps other .directory ?_ hother
  rintro rfl
  exact h.free hother

/-- A file that was put somewhere is found there by the same parts. -/
theorem put_eq_ok (h : put p content fs place parts = .ok next) :
    Written fs (parts.foldl Place.step place) content next ∧
      next.follow place parts = .there (.file content) := by
  induction parts generalizing fs place with
  | nil =>
    unfold put at h
    split at h
    · cases h
    · rename_i hfree
      cases h
      have hwritten : Written fs place content _ := written_set hfree
      refine ⟨hwritten, ?_⟩
      unfold follow
      rw [hwritten.file]
  | cons part rest ih =>
    unfold put at h
    split at h
    · rename_i hplace
      obtain ⟨hwritten, hfollow⟩ := ih h
      refine ⟨hwritten, ?_⟩
      unfold follow
      rw [hwritten.keeps_directory hplace]
      exact hfollow
    · cases h
    · rename_i hplace
      obtain ⟨hwritten, hfollow⟩ := ih h
      refine ⟨hwritten.of_directory hplace, ?_⟩
      unfold follow
      rw [hwritten.keeps_directory (by rw [node?_set (by simp [hplace]), if_pos rfl])]
      exact hfollow

theorem write_eq_ok (h : fs.write p content = .ok next) :
    p.isPassable = true ∧ Written fs (fs.place p) content next ∧
      next.look p = .there (.file content) := by
  unfold write at h
  split at h
  · cases h
  · rename_i hpassable
    obtain ⟨hwritten, hfollow⟩ := put_eq_ok h
    refine ⟨by simpa using hpassable, hwritten, ?_⟩
    unfold look start
    rw [hwritten.home]
    exact hfollow

/-! ## Reading -/

theorem isThere_iff :
    fs.isThere p = true ↔ p.isPassable = true ∧ ∃ node, fs.look p = .there node := by
  unfold isThere
  rw [Bool.and_eq_true]
  refine and_congr_right fun _ => ?_
  cases fs.look p <;> simp

theorem read_eq_ok_iff :
    fs.read p = .ok content ↔
      fs.isThere p = true ∧ fs.node? (fs.place p) = some (.file content) := by
  rw [isThere_iff]
  constructor
  · intro h
    unfold read at h
    split at h
    · cases h
    · rename_i hp
      split at h <;> cases h
      rename_i hlook
      exact ⟨⟨by simpa using hp, _, hlook⟩, node?_of_follow hlook⟩
  · rintro ⟨⟨hp, node, hlook⟩, hfile⟩
    obtain rfl : .file content = node :=
      Option.some.inj (hfile.symm.trans (node?_of_follow hlook))
    simp [read, hp, hlook]

/-- What decodes to a text is the text in UTF-8. -/
theorem decode_eq_ok_iff {text : String} : decode content = .ok text ↔ content = text.toUTF8 := by
  unfold decode String.fromUTF8?
  split
  · rename_i found h
    split at h
    · cases h
      constructor
      · intro h
        cases h
        rfl
      · rintro rfl
        rfl
    · cases h
  · rename_i h
    split at h
    · cases h
    · rename_i hvalid
      refine iff_of_false nofun ?_
      rintro rfl
      exact hvalid text.isValidUTF8

theorem parse_eq_ok_iff {text : String} : parse text = .ok j ↔ Json.parse text = .ok j := by
  unfold parse
  split <;> simp_all

theorem readJson_eq_ok_iff :
    fs.readJson p = .ok j ↔ fs.isThere p = true ∧
      ∃ text, fs.node? (fs.place p) = some (.file text.toUTF8) ∧ Json.parse text = .ok j := by
  unfold readJson
  simp only [bind_eq_ok, read_eq_ok_iff, decode_eq_ok_iff, parse_eq_ok_iff]
  constructor
  · rintro ⟨_, ⟨hp, hfile⟩, text, rfl, hparse⟩
    exact ⟨hp, text, hfile, hparse⟩
  · rintro ⟨hp, text, hfile, hparse⟩
    exact ⟨_, ⟨hp, hfile⟩, text, rfl, hparse⟩

/-! ## Writes one after the other -/

structure Write where
  path : Path
  content : ByteArray

def Write.Succeeds (w : Write) (fs : Files) : Prop := ∃ next, fs.write w.path w.content = .ok next

/-- The files after a write, whether it fails or not. -/
def attempt (fs : Files) (w : Write) : Files := (fs.write w.path w.content).toOption.getD fs

def after (fs : Files) (ws : List Write) : Files := ws.foldl attempt fs

/-- The last of some writes that has succeeded at its place. -/
inductive LastWrite (fs : Files) : List Write → Write → Prop
  | now {ws : List Write} {w : Write} (h : w.Succeeds (fs.after ws)) : LastWrite fs (ws ++ [w]) w
  | since {ws : List Write} {w x : Write} (h : LastWrite fs ws w)
    (hx : x.Succeeds (fs.after ws) → fs.place x.path ≠ fs.place w.path) :
    LastWrite fs (ws ++ [x]) w

variable {ws : List Write} {w : Write}

theorem after_append (fs : Files) (ws : List Write) (w : Write) :
    fs.after (ws ++ [w]) = (fs.after ws).attempt w :=
  List.foldl_append

/-- A write that fails changes nothing. -/
theorem attempt_cases (fs : Files) (w : Write) :
    (w.Succeeds fs ∧ fs.write w.path w.content = .ok (fs.attempt w)) ∨
      (¬ w.Succeeds fs ∧ fs.attempt w = fs) := by
  unfold Write.Succeeds attempt
  cases fs.write w.path w.content with
  | ok next => exact .inl ⟨⟨next, rfl⟩, rfl⟩
  | error f => exact .inr ⟨nofun, rfl⟩

theorem home_attempt (fs : Files) (w : Write) : (fs.attempt w).home = fs.home := by
  rcases attempt_cases fs w with ⟨-, h⟩ | ⟨-, h⟩
  · exact (write_eq_ok h).2.1.home
  · rw [h]

theorem place_after (fs : Files) (ws : List Write) (p : Path) :
    (fs.after ws).place p = fs.place p := by
  refine place_eq_of_home ?_ p
  induction ws using List.reverseRecOn with
  | nil => rfl
  | append_singleton ws w ih => rw [after_append, home_attempt, ih]

/-- A file stays one. -/
theorem file_attempt (h : fs.node? place = some (.file content)) (w : Write) :
    ∃ found, (fs.attempt w).node? place = some (.file found) := by
  rcases attempt_cases fs w with ⟨-, hwrite⟩ | ⟨-, hsame⟩
  · obtain ⟨-, hwritten, -⟩ := write_eq_ok hwrite
    by_cases hplace : place = fs.place w.path
    · exact ⟨w.content, hplace ▸ hwritten.file⟩
    · exact ⟨content, hwritten.keeps place _ hplace h⟩
  · rw [hsame]
    exact ⟨content, h⟩

/-- A path that leads somewhere leads there still. -/
theorem isThere_attempt (h : fs.isThere p = true) (w : Write) :
    (fs.attempt w).isThere p = true := by
  rw [isThere_iff] at h ⊢
  obtain ⟨hp, node, hlook⟩ := h
  refine ⟨hp, ?_⟩
  rcases attempt_cases fs w with ⟨-, hwrite⟩ | ⟨-, hsame⟩
  · obtain ⟨-, hwritten, -⟩ := write_eq_ok hwrite
    obtain ⟨last, hlast⟩ : ∃ last, (fs.attempt w).node? (fs.place p) = some last := by
      by_cases hplace : fs.place p = fs.place w.path
      · exact ⟨_, hplace ▸ hwritten.file⟩
      · exact ⟨node, hwritten.keeps _ node hplace (node?_of_follow hlook)⟩
    refine ⟨last, ?_⟩
    unfold look start at hlook ⊢
    rw [hwritten.home]
    exact follow_of_keep (fun _ => hwritten.keeps_directory) hlook hlast
  · rw [hsame]
    exact ⟨node, hlook⟩

theorem isThere_after (h : fs.isThere p = true) (ws : List Write) :
    (fs.after ws).isThere p = true := by
  induction ws using List.reverseRecOn with
  | nil => exact h
  | append_singleton ws w ih =>
    rw [after_append]
    exact isThere_attempt ih w

theorem LastWrite.isThere (h : fs.LastWrite ws w) : (fs.after ws).isThere w.path = true := by
  induction h with
  | now h =>
    obtain ⟨next, hnext⟩ := h
    obtain ⟨hp, -, hlook⟩ := write_eq_ok hnext
    rw [after_append, attempt, hnext, isThere_iff]
    exact ⟨hp, _, hlook⟩
  | @since ws w x _ _ ih =>
    rw [after_append]
    exact isThere_attempt ih x

theorem LastWrite.node? (h : fs.LastWrite ws w) :
    (fs.after ws).node? (fs.place w.path) = some (.file w.content) := by
  induction h with
  | @now ws w h =>
    obtain ⟨next, hnext⟩ := h
    obtain ⟨-, hwritten, -⟩ := write_eq_ok hnext
    rw [after_append, attempt, hnext, ← place_after fs ws]
    exact hwritten.file
  | @since ws w x _ hx ih =>
    rw [after_append]
    rcases attempt_cases (fs.after ws) x with ⟨hsucceeds, hwrite⟩ | ⟨-, hsame⟩
    · obtain ⟨-, hwritten, -⟩ := write_eq_ok hwrite
      rw [place_after] at hwritten
      exact hwritten.keeps _ _ (hx hsucceeds).symm ih
    · rw [hsame, ih]

/-- A file comes from the last write at its place, or it was there before. -/
theorem exists_lastWrite (h : (fs.after ws).node? place = some (.file content)) :
    (∃ w, fs.LastWrite ws w ∧ fs.place w.path = place ∧ w.content = content) ∨
      fs.node? place = some (.file content) := by
  induction ws using List.reverseRecOn with
  | nil => exact .inr h
  | append_singleton ws x ih =>
    rw [after_append] at h
    -- what is there for another reason than the last write was there before it
    have hbefore (hold : (fs.after ws).node? place = some (.file content))
        (hx : x.Succeeds (fs.after ws) → fs.place x.path ≠ place) :
        (∃ w, fs.LastWrite (ws ++ [x]) w ∧ fs.place w.path = place ∧ w.content = content) ∨
          fs.node? place = some (.file content) := by
      refine (ih hold).imp_left ?_
      rintro ⟨w, hw, rfl, hcontent⟩
      exact ⟨w, .since hw hx, rfl, hcontent⟩
    rcases attempt_cases (fs.after ws) x with ⟨hsucceeds, hwrite⟩ | ⟨hfails, hsame⟩
    · obtain ⟨-, hwritten, -⟩ := write_eq_ok hwrite
      rw [place_after] at hwritten
      by_cases hplace : fs.place x.path = place
      · subst hplace
        cases hwritten.file.symm.trans h
        exact .inl ⟨x, .now hsucceeds, rfl, rfl⟩
      · obtain hold | hdirectory := hwritten.makes place _ (Ne.symm hplace) h
        · exact hbefore hold fun _ => hplace
        · cases hdirectory
    · rw [hsame] at h
      exact hbefore h fun hsucceeds => absurd hsucceeds hfails

/-- What writes leave at a place: what the last one there has put, or if there is none what was
there before. -/
def Leaves (fs : Files) (ws : List Write) (place : Place) (content : ByteArray) : Prop :=
  (∃ w, fs.LastWrite ws w ∧ fs.place w.path = place ∧ w.content = content) ∨
    (∀ w, fs.LastWrite ws w → fs.place w.path ≠ place) ∧ fs.node? place = some (.file content)

theorem node?_after_iff :
    (fs.after ws).node? place = some (.file content) ↔ fs.Leaves ws place content := by
  unfold Leaves
  constructor
  · intro h
    by_cases hlast : ∃ w, fs.LastWrite ws w ∧ fs.place w.path = place
    · obtain ⟨w, hw, rfl⟩ := hlast
      cases hw.node?.symm.trans h
      exact .inl ⟨w, hw, rfl, rfl⟩
    · have hnot : ∀ w, fs.LastWrite ws w → fs.place w.path ≠ place :=
        fun w hw hplace => hlast ⟨w, hw, hplace⟩
      rcases exists_lastWrite h with ⟨w, hw, hplace, -⟩ | hold
      · exact absurd hplace (hnot w hw)
      · exact .inr ⟨hnot, hold⟩
  · rintro (⟨w, hw, rfl, rfl⟩ | ⟨hnot, hold⟩)
    · exact hw.node?
    · have hfile : ∃ found, (fs.after ws).node? place = some (.file found) := by
        clear hnot
        induction ws using List.reverseRecOn with
        | nil => exact ⟨content, hold⟩
        | append_singleton ws w ih =>
          obtain ⟨found, hfound⟩ := ih
          rw [after_append]
          exact file_attempt hfound w
      obtain ⟨found, hfound⟩ := hfile
      rcases exists_lastWrite hfound with ⟨w, hw, hplace, -⟩ | hfirst
      · exact absurd hplace (hnot w hw)
      · rw [hfound, ← hfirst, hold]

/-- What is read as JSON after writes. -/
theorem readJson_after_iff :
    (fs.after ws).readJson p = .ok j ↔ (fs.after ws).isThere p = true ∧
      ∃ text, fs.Leaves ws ((fs.after ws).place p) text.toUTF8 ∧ Json.parse text = .ok j := by
  simp only [readJson_eq_ok_iff, node?_after_iff]

end Measures.Files
