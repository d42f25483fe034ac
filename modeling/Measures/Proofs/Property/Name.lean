import Measures.Proofs.Pattern.Matching
import Measures.Property.Name
import Measures.Text.Surrogate

/-!
# Names and the pattern for them

Names are recognized by one reading from left to right. The pattern matches just these, and in
documents a name with a line feed after it, too.
-/

namespace Measures.Property

open Pattern (Chain Reaches reaches_seq reaches_many_char_iff occursIn_iff)

/-! ## Reading a name -/

def isLetter (c : Char) : Bool := 'a' ≤ c && c ≤ 'z'

def isWordChar (c : Char) : Bool := isLetter c || ('0' ≤ c && c ≤ '9')

/-- What may follow a letter or digit of a name. -/
def continuesName : List Char → Bool
  | [] => true
  | '-' :: c :: rest => isWordChar c && continuesName rest
  | c :: rest => isWordChar c && continuesName rest

def isName : List Char → Bool
  | [] => false
  | c :: rest => isLetter c && continuesName rest

/-! ## Words and hyphens -/

variable {c : Char} {w s rest a b text : List Char} {ending : Pattern}

theorem ne_hyphen_of_isWordChar (h : isWordChar c = true) : c ≠ '-' := by
  rintro rfl
  exact absurd h (by decide)

theorem continuesName_cons (hc : isWordChar c = true) :
    continuesName (c :: rest) = continuesName rest := by
  have hne := ne_hyphen_of_isWordChar hc
  cases rest with
  | nil => simp [continuesName, hc]
  | cons d rest => simp [continuesName, hc, hne]

theorem continuesName_append (hw : ∀ c ∈ w, isWordChar c = true) :
    continuesName (w ++ rest) = continuesName rest := by
  induction w with
  | nil => rfl
  | cons c w ih =>
    obtain ⟨hc, hw⟩ := List.forall_mem_cons.1 hw
    rw [List.cons_append, continuesName_cons hc, ih hw]

/-- A hyphen and a word. -/
def Hyphenated (a b : List Char) : Prop :=
  ∃ w, a = '-' :: w ++ b ∧ w ≠ [] ∧ ∀ c ∈ w, isWordChar c = true

theorem continuesName_hyphenated (h : Hyphenated a b) : continuesName a = continuesName b := by
  obtain ⟨w, rfl, hne, hw⟩ := h
  obtain ⟨c, w, rfl⟩ := List.exists_cons_of_ne_nil hne
  obtain ⟨hc, hw⟩ := List.forall_mem_cons.1 hw
  simp [continuesName, hc, continuesName_append hw]

theorem continuesName_of_chain {n : Nat} (h : Chain Hyphenated n a b) :
    ∃ s, a = s ++ b ∧ continuesName s = true := by
  induction n generalizing a with
  | zero => exact ⟨[], h, rfl⟩
  | succ n ih =>
    obtain ⟨m, ⟨w, rfl, hne, hw⟩, hchain⟩ := h
    obtain ⟨s, rfl, hs⟩ := ih hchain
    have hstep : Hyphenated ('-' :: w ++ s) s := ⟨w, rfl, hne, hw⟩
    exact ⟨'-' :: w ++ s, by simp, continuesName_hyphenated hstep ▸ hs⟩

/-- What continues a name is a word, and then hyphens and words. -/
theorem chain_of_continuesName (h : continuesName s = true) (b : List Char) :
    ∃ w m n, s ++ b = w ++ m ∧ (∀ c ∈ w, isWordChar c = true) ∧ Chain Hyphenated n m b := by
  fun_induction continuesName s with
  | case1 => exact ⟨[], b, 0, rfl, nofun, rfl⟩
  | case2 c rest ih =>
    obtain ⟨hc, hrest⟩ := Bool.and_eq_true_iff.1 h
    obtain ⟨w, m, n, hcs, hw, hchain⟩ := ih hrest
    have hstep : Hyphenated ('-' :: c :: w ++ m) m :=
      ⟨c :: w, rfl, List.cons_ne_nil c w, List.forall_mem_cons.2 ⟨hc, hw⟩⟩
    exact ⟨[], '-' :: c :: w ++ m, n + 1, by simp [hcs], nofun, m, hstep, hchain⟩
  | case3 c rest _ ih =>
    obtain ⟨hc, hrest⟩ := Bool.and_eq_true_iff.1 h
    obtain ⟨w, m, n, hcs, hw, hchain⟩ := ih hrest
    exact ⟨c :: w, m, n, by simp [hcs], List.forall_mem_cons.2 ⟨hc, hw⟩, hchain⟩

/-! ## The pattern -/

theorem reaches_letter :
    (anyOf [('a', 'z')]).Reaches text a b ↔ ∃ c, a = c :: b ∧ isLetter c = true := by
  simp [anyOf, Reaches, CharSet.contains, CharClass.contains, isLetter]

theorem reaches_hyphen : (anyOf [('-', '-')]).Reaches text a b ↔ a = '-' :: b := by
  simp only [anyOf, Reaches, CharSet.contains, List.map_cons, List.map_nil, List.any_cons,
    List.any_nil, Bool.or_false, bne_iff_ne, ne_eq, Bool.not_eq_false, CharClass.contains,
    Bool.and_eq_true, decide_eq_true_eq]
  constructor
  · rintro ⟨c, rfl, hge, hle⟩
    rw [Char.le_antisymm hle hge]
  · rintro rfl
    exact ⟨'-', rfl, by decide, by decide⟩

theorem reaches_wordChars {least : Nat} :
    (Pattern.many least none (anyOf [('a', 'z'), ('0', '9')])).Reaches text a b ↔
      ∃ w, a = w ++ b ∧ least ≤ w.length ∧ ∀ c ∈ w, isWordChar c = true := by
  have hcontains (c : Char) :
      CharSet.contains ⟨[.range 'a' 'z', .range '0' '9'], false⟩ c = isWordChar c := by
    simp [CharSet.contains, CharClass.contains, isWordChar, isLetter]
  simp only [← hcontains]
  exact reaches_many_char_iff

theorem reaches_hyphenWord :
    (Pattern.seq (anyOf [('-', '-')])
      (.many 1 none (anyOf [('a', 'z'), ('0', '9')]))).Reaches text a b ↔ Hyphenated a b := by
  simp only [reaches_seq, reaches_hyphen, reaches_wordChars]
  constructor
  · rintro ⟨_, rfl, w, rfl, hlength, hw⟩
    exact ⟨w, rfl, List.ne_nil_of_length_pos hlength, hw⟩
  · rintro ⟨w, rfl, hne, hw⟩
    exact ⟨w ++ b, rfl, w, rfl, List.length_pos_iff.2 hne, hw⟩

theorem reaches_hyphenated :
    (Pattern.many 0 none (.seq (anyOf [('-', '-')])
      (.many 1 none (anyOf [('a', 'z'), ('0', '9')])))).Reaches text a b ↔
        ∃ n, Chain Hyphenated n a b := by
  have hstep : (Pattern.seq (anyOf [('-', '-')])
      (.many 1 none (anyOf [('a', 'z'), ('0', '9')]))).Reaches text = Hyphenated :=
    funext fun _ => funext fun _ => propext reaches_hyphenWord
  rw [Reaches, hstep]
  refine exists_congr fun n => ⟨fun h => h.2.2, fun h => ⟨n.zero_le, ?_, h⟩⟩
  intro most hmost
  cases hmost

/-- The pattern matches a name at the front of a whole text, and then the end. -/
theorem reaches_nameFormTo :
    (nameFormTo ending).Reaches text a b ↔
      a = text ∧ ∃ w m, a = w ++ m ∧ isName w = true ∧ ending.Reaches text m b := by
  simp only [nameFormTo, reaches_seq, reaches_letter, reaches_wordChars, reaches_hyphenated]
  constructor
  · rintro ⟨_, ⟨rfl, rfl⟩, _, ⟨c, rfl, hc⟩, _, ⟨w, rfl, -, hw⟩, m, ⟨n, hchain⟩, hend⟩
    obtain ⟨s, rfl, hs⟩ := continuesName_of_chain hchain
    refine ⟨rfl, c :: w ++ s, m, by simp, ?_, hend⟩
    simp [isName, hc, continuesName_append hw, hs]
  · rintro ⟨rfl, w, m, rfl, hname, hend⟩
    cases w with
    | nil => simp [isName] at hname
    | cons c s =>
      obtain ⟨hc, hs⟩ := Bool.and_eq_true_iff.1 hname
      obtain ⟨w, r, n, hcs, hw, hchain⟩ := chain_of_continuesName hs m
      exact ⟨_, ⟨rfl, rfl⟩, s ++ m, ⟨c, rfl, hc⟩, r, ⟨w, hcs, w.length.zero_le, hw⟩, m,
        ⟨n, hchain⟩, hend⟩

theorem occursIn_nameFormTo {name : String} :
    (nameFormTo ending).occursIn name = true ↔
      ∃ w m b, name.toList = w ++ m ∧ isName w = true ∧ ending.Reaches name.toList m b := by
  rw [occursIn_iff]
  simp only [reaches_nameFormTo]
  constructor
  · rintro ⟨_, -, b, rfl, w, m, hcs, hname, hend⟩
    exact ⟨w, m, b, hcs, hname, hend⟩
  · rintro ⟨w, m, b, hcs, hname, hend⟩
    exact ⟨name.toList, List.suffix_rfl, b, rfl, w, m, hcs, hname, hend⟩

theorem occursIn_nameForm {name : String} :
    nameForm.occursIn name = true ↔
      ∃ w rest, name.toList = w ++ rest ∧ isName w = true ∧ (rest = [] ∨ rest = ['\n']) := by
  simp [nameForm, occursIn_nameFormTo, Reaches]

/-- In the dialect of definitions nothing may follow a name. -/
theorem occursIn_strictNameForm {name : String} :
    strictNameForm.occursIn name = true ↔ isName name.toList = true := by
  simp [strictNameForm_eq, occursIn_nameFormTo, Reaches]

/-! ## Characters of names -/

theorem isWordChar_of_isLetter (h : isLetter c = true) : isWordChar c = true := by
  simp [isWordChar, h]

theorem forall_mem_of_continuesName (h : continuesName s = true) :
    ∀ c ∈ s, isWordChar c = true ∨ c = '-' := by
  fun_induction continuesName s with
  | case1 => nofun
  | case2 d rest ih =>
    obtain ⟨hd, hrest⟩ := Bool.and_eq_true_iff.1 h
    exact List.forall_mem_cons.2 ⟨.inr rfl, List.forall_mem_cons.2 ⟨.inl hd, ih hrest⟩⟩
  | case3 d rest _ ih =>
    obtain ⟨hd, hrest⟩ := Bool.and_eq_true_iff.1 h
    exact List.forall_mem_cons.2 ⟨.inl hd, ih hrest⟩

theorem forall_mem_of_isName (h : isName s = true) :
    ∀ c ∈ s, isWordChar c = true ∨ c = '-' := by
  cases s with
  | nil => nofun
  | cons d rest =>
    obtain ⟨hd, hrest⟩ := Bool.and_eq_true_iff.1 h
    exact List.forall_mem_cons.2
      ⟨.inl (isWordChar_of_isLetter hd), forall_mem_of_continuesName hrest⟩

theorem toNat_lt_of_isWordChar (h : isWordChar c = true) : c.toNat < 128 := by
  simp only [isWordChar, isLetter, Bool.or_eq_true, Bool.and_eq_true, decide_eq_true_eq] at h
  have hle : c ≤ 'z' := by
    rcases h with h | h
    · exact h.2
    · exact Char.le_trans h.2 (by decide)
  exact Nat.lt_of_le_of_lt hle (by decide)

theorem toNat_lt_of_mem_name (h : isName s = true) (hc : c ∈ s) : c.toNat < 128 := by
  rcases forall_mem_of_isName h c hc with hword | rfl
  · exact toNat_lt_of_isWordChar hword
  · decide

theorem lineFeed_not_mem_name (h : isName s = true) : '\n' ∉ s := by
  intro hmem
  rcases forall_mem_of_isName h _ hmem with hword | heq
  · exact absurd hword (by decide)
  · exact absurd heq (by decide)

/-- A text that the pattern matches is a name unless a line feed ends it. -/
theorem isName_iff_of_occursIn {name : String} (h : nameForm.occursIn name = true) :
    isName name.toList = true ↔ name.toList.getLast? ≠ some '\n' := by
  obtain ⟨w, rest, hname, hw, rfl | rfl⟩ := occursIn_nameForm.1 h
  · rw [List.append_nil] at hname
    rw [hname]
    exact ⟨fun _ hlast => lineFeed_not_mem_name hw (List.mem_of_getLast? hlast), fun _ => hw⟩
  · have hmem : '\n' ∈ name.toList := by simp [hname]
    have hlast : name.toList.getLast? = some '\n' := by simp [hname]
    exact ⟨fun hn => absurd hmem (lineFeed_not_mem_name hn), fun hne => absurd hlast hne⟩

theorem hasSurrogate_of_occursIn {name : String} (h : nameForm.occursIn name = true) :
    Text.hasSurrogate name = false := by
  obtain ⟨w, rest, hname, hw, hend⟩ := occursIn_nameForm.1 h
  rw [Text.hasSurrogate, List.any_eq_false, hname]
  intro c hc
  have hlt : c.toNat < 128 := by
    rcases List.mem_append.1 hc with hc | hc
    · exact toNat_lt_of_mem_name hw hc
    · rcases hend with rfl | rfl
      · cases hc
      · rw [List.mem_singleton.1 hc]
        decide
  rw [Text.surrogate?, if_neg (by omega)]
  exact Bool.false_ne_true

end Measures.Property
