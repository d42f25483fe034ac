import Mathlib.Tactic.IntervalCases
import Measures.Binary64.Text
import Measures.Proofs.Binary64.Reading

/-!
# The text of a number reads back

Each layout is read as the digits that it lays out, with the exponent that puts the point where it
was. The digits with that exponent are the shortest decimal, which rounds to the number.
-/

namespace Measures

namespace FloatLayout

variable {digits : List Char} {c n : Nat} {point e : Int} {s : Bool}

open Binary64

/-! ## Digits -/

/-- Digits without a zero in front. -/
structure IsNumeral (digits : List Char) : Prop where
  ne : digits ≠ []
  head : digits.head? ≠ some '0'
  digit : ∀ d ∈ digits, d.isDigit = true

theorem exists_trimZeros (all : List Char) :
    ∃ t, all = trimZeros all ++ List.replicate t '0' := by
  induction all using List.reverseRecOn with
  | nil => exact ⟨0, rfl⟩
  | append_singleton l c ih =>
    by_cases hc : c = '0'
    · subst hc
      obtain ⟨t, ht⟩ := ih
      refine ⟨t + 1, ?_⟩
      have htrim : trimZeros (l ++ ['0']) = trimZeros l := by simp [trimZeros]
      rw [htrim, List.replicate_succ', ← List.append_assoc, ← ht]
    · exact ⟨0, by simp [trimZeros, hc]⟩

theorem head_toDigits (h : 0 < c) : (Nat.toDigits 10 c).head? ≠ some '0' := by
  induction c using Nat.strong_induction_on with
  | _ c ih =>
    rw [Nat.toDigits_eq_if (by decide)]
    split
    · interval_cases c <;> decide
    · have hne : Nat.toDigits 10 (c / 10) ≠ [] := Nat.toDigits_ne_nil
      rw [List.head?_append_of_ne_nil _ hne]
      exact ih (c / 10) (by omega) (by omega)

theorem isDigit_of_mem_toDigits {d : Char} (h : d ∈ Nat.toDigits 10 c) : d.isDigit = true :=
  Nat.isDigit_of_mem_toDigits (by decide) (by decide) h

/-- The digits that are written, and the zeros that are not. -/
theorem exists_numeral (h : 0 < c) : ∃ t, IsNumeral (trimZeros (Nat.toDigits 10 c)) ∧
    c = Nat.ofDigitChars 10 (trimZeros (Nat.toDigits 10 c)) 0 * Nat.pow 10 t ∧
    (Nat.toDigits 10 c).length = (trimZeros (Nat.toDigits 10 c)).length + t := by
  obtain ⟨t, ht⟩ := exists_trimZeros (Nat.toDigits 10 c)
  have hvalue : Nat.ofDigitChars 10 (Nat.toDigits 10 c) 0 = c := Nat.ofDigitChars_ten_toDigits
  have hhead := head_toDigits h
  have hdigit : ∀ d ∈ Nat.toDigits 10 c, d.isDigit = true := fun d => isDigit_of_mem_toDigits
  generalize trimZeros (Nat.toDigits 10 c) = digits at *
  rw [ht] at hvalue hhead hdigit ⊢
  rw [Nat.ofDigitChars_append, Nat.ofDigitChars_replicate_zero, Nat.mul_comm] at hvalue
  have hne : digits ≠ [] := by
    rintro rfl
    rw [Nat.ofDigitChars_nil, Nat.zero_mul] at hvalue
    omega
  rw [List.head?_append_of_ne_nil _ hne] at hhead
  have hnumeral : IsNumeral digits := ⟨hne, hhead, fun d hd => hdigit d (List.mem_append_left _ hd)⟩
  exact ⟨t, hnumeral, hvalue.symm, by simp⟩

/-! ## Layouts -/

/-- A text is read as digits between zeros, with the point after the first `point` of the digits. -/
def ReadsAs (s : Bool) (text digits : List Char) (point : Int) : Prop :=
  ∃ (a b : Nat) (e : Int), plain? s text = some (ofDecimal s
      (List.replicate a 0 ++ digits.map Text.digitValue ++ List.replicate b 0) e) ∧
    digits.length + b + e = point

theorem ReadsAs.of_eq {text : List Char} {values : List Nat} (a b : Nat)
    (hread : plain? s text = some (ofDecimal s values e))
    (hvalues : values = List.replicate a 0 ++ digits.map Text.digitValue ++ List.replicate b 0)
    (hpoint : digits.length + b + e = point) : ReadsAs s text digits point := by
  subst hvalues
  exact ⟨a, b, e, hread, hpoint⟩

theorem isDigit_of_mem_zeros {k : Nat} : ∀ d ∈ List.replicate k '0', d.isDigit = true := by
  intro d hd
  rw [List.eq_of_mem_replicate hd]
  rfl

theorem isDigit_of_mem_append {ds fs : List Char} (hds : ∀ d ∈ ds, d.isDigit = true)
    (hfs : ∀ d ∈ fs, d.isDigit = true) : ∀ d ∈ ds ++ fs, d.isDigit = true := by
  intro d hd
  rcases List.mem_append.1 hd with hd | hd
  · exact hds d hd
  · exact hfs d hd

theorem readsAs_positional (h : IsNumeral digits) (s : Bool) (point : Int) :
    ReadsAs s (standard.positional digits point) digits point := by
  have hzero : Text.digitValue '0' = 0 := rfl
  have hzeros : ∀ d ∈ ['0'], d.isDigit = true := isDigit_of_mem_zeros (k := 1)
  have hend : standard.integerEnd.toList = ['.', '0'] := rfl
  -- The point stands before all digits, behind all of them or among them.
  unfold positional
  split
  · have hfs := isDigit_of_mem_append (isDigit_of_mem_zeros (k := (-point).toNat)) h.digit
    refine ReadsAs.of_eq ((-point).toNat + 1) 0
      (plain?_fixed s hzeros (List.cons_ne_nil _ _) hfs) ?_ ?_
    · simp [hzero, List.replicate_succ]
    · simp
      omega
  split
  · have hds := isDigit_of_mem_append h.digit
      (isDigit_of_mem_zeros (k := point.toNat - digits.length))
    have hne : digits ++ List.replicate (point.toNat - digits.length) '0' ≠ [] := by
      simp [h.ne]
    rw [hend]
    refine ReadsAs.of_eq 0 (point.toNat - digits.length + 1)
      (plain?_fixed s hds hne hzeros) ?_ ?_
    · simp [hzero, List.replicate_succ']
    · simp
      omega
  · have hds : ∀ d ∈ digits.take point.toNat, d.isDigit = true :=
      fun d hd => h.digit d (List.mem_of_mem_take hd)
    have hfs : ∀ d ∈ digits.drop point.toNat, d.isDigit = true :=
      fun d hd => h.digit d (List.mem_of_mem_drop hd)
    have hne : digits.take point.toNat ≠ [] := by
      simp [h.ne]
      omega
    refine ReadsAs.of_eq 0 0 (plain?_fixed s hds hne hfs) ?_ ?_
    · simp
    · simp
      omega

theorem isDigit_of_mem_exponent (e : Int) :
    ∀ d ∈ List.replicate (standard.exponentWidth - (Nat.toDigits 10 e.natAbs).length) '0'
      ++ Nat.toDigits 10 e.natAbs, d.isDigit = true :=
  isDigit_of_mem_append isDigit_of_mem_zeros fun _ => isDigit_of_mem_toDigits

theorem exponent?_written (e : Int) :
    exponent? (standard.mark :: standard.exponentDigits e) = some e := by
  have hne : List.replicate (standard.exponentWidth - (Nat.toDigits 10 e.natAbs).length) '0'
      ++ Nat.toDigits 10 e.natAbs ≠ [] := by
    simp [Nat.toDigits_ne_nil]
  have hread := exponent?_digits (isDigit_of_mem_exponent e) hne (e < 0)
  rw [Nat.ofDigitChars_append, Nat.ofDigitChars_replicate_zero, Nat.mul_zero,
    Nat.ofDigitChars_ten_toDigits] at hread
  have hmark : standard.mark = 'e' := rfl
  have hsigned : signed (e < 0) e.natAbs = e := by
    unfold signed
    split <;> rename_i h <;> simp at h <;> omega
  rw [hsigned] at hread
  simpa [exponentDigits, hmark] using hread

theorem readsAs_scientific (h : IsNumeral digits) (s : Bool) (e : Int) :
    ReadsAs s (standard.scientific digits e) digits (e + 1) := by
  have htail : IsTail (standard.mark :: standard.exponentDigits e) := by
    intro c hc
    exact (Option.some.inj hc).symm
  have hdigit := h.digit
  unfold scientific
  split
  · next d f rest =>
    have hds : ∀ c ∈ [d], c.isDigit = true := by simp_all
    have hfs : ∀ c ∈ f :: rest, c.isDigit = true := by simp_all
    have hread := plain?_point s hds (List.cons_ne_nil _ _) hfs htail
    rw [exponent?_written] at hread
    refine ReadsAs.of_eq 0 0 hread ?_ ?_
    · simp
    · simp
      omega
  · next hshort =>
    have hread := plain?_whole s hdigit h.ne htail
    rw [exponent?_written] at hread
    refine ReadsAs.of_eq 0 0 hread (by simp) ?_
    have hlength : digits.length = 1 := by
      match digits, h.ne with
      | [d], _ => rfl
      | d :: f :: rest, _ => exact absurd rfl (hshort d f rest)
    omega

/-! ## Counts -/

theorem readsAs_decimal (h : 0 < c) (s : Bool) (e : Int) :
    ReadsAs s (standard.decimal ⟨c, e⟩) (trimZeros (Nat.toDigits 10 c))
      ((Nat.toDigits 10 c).length + e) := by
  obtain ⟨t, hnumeral, -, -⟩ := exists_numeral h
  simp only [decimal]
  split
  · exact readsAs_positional hnumeral s _
  · have hread := readsAs_scientific hnumeral s ((Nat.toDigits 10 c).length + e - 1)
    rw [Int.sub_add_cancel] at hread
    exact hread

/-- Digits without a zero in front have none as values. -/
theorem IsNumeral.head_values (h : IsNumeral digits) :
    (digits.map Text.digitValue).head? ≠ some 0 := by
  obtain ⟨hne, hhead, hdigit⟩ := h
  cases digits with
  | nil => exact absurd rfl hne
  | cons d rest =>
    intro hvalue
    have hzero : Text.digitValue d = 0 := Option.some.inj hvalue
    have hd := (Text.isDigit_iff d).1 (hdigit d List.mem_cons_self)
    apply hhead
    have hnat : d.toNat = '0'.toNat := by
      unfold Text.digitValue at hzero
      have : '0'.toNat = 48 := rfl
      omega
    rw [List.head?_cons, Char.toNat_inj.1 hnat]

theorem ReadsAs.plain?_eq {text : List Char} {t j : Nat} (h : ReadsAs s text digits point)
    (hdigits : IsNumeral digits) (hlow : -400 ≤ point) (hhigh : point ≤ 400)
    (hpoint : point + fractionBits = digits.length + t + j) :
    plain? s text = some (ofRatio s
      (Nat.ofDigitChars 10 digits 0 * Nat.pow 10 t * Nat.pow 10 j) fine) := by
  obtain ⟨a, b, e, hread, rfl⟩ := h
  have hne : digits.map Text.digitValue ≠ [] := by simpa using hdigits.ne
  have hlength : (digits.map Text.digitValue).length = digits.length := List.length_map _
  rw [hread, ofDecimal_zeros s hne hdigits.head_values a b (t := t) (j := j) (by omega) (by omega)
    (by omega), Text.ofDigits_map]

theorem plain?_units (s : Bool) (hn : Fits n) :
    plain? s (standard.units n) = some (.finite s n hn) := by
  unfold units
  split
  · next h0 =>
    subst h0
    rfl
  · next hne =>
    have hpos : 0 < n := Nat.pos_of_ne_zero hne
    obtain ⟨c, j, hshortest, hc, hback⟩ := exists_shortest (dvd_of_fits hn) hpos
    obtain ⟨hlow, hhigh⟩ := length_of_readsBack hn hpos hback
    have hround := roundUnits_of_readsBack (dvd_of_fits hn) hpos hback
    obtain ⟨t, hnumeral, hvalue, hlength⟩ := exists_numeral hc
    have hread := readsAs_decimal hc s (j - fractionBits)
    have hbits : fractionBits = 1074 := rfl
    rw [hshortest, hread.plain?_eq hnumeral (t := t) (j := j) (by omega) (by omega) (by omega),
      ← hvalue, ofRatio, hround, ofUnits_of_fits s hn]

/-! ## Characters -/

/-- The characters of which the texts of numbers are made. -/
def written : List Char := "0123456789.e+-infa".toList

theorem mem_digits_of_isDigit {d : Char} (h : d.isDigit = true) : d ∈ "0123456789".toList := by
  obtain ⟨hlow, hhigh⟩ := (Text.isDigit_iff d).1 h
  rw [← Char.ofNat_toNat d]
  generalize d.toNat = k at *
  interval_cases k <;> decide

theorem mem_written_of_isDigit {d : Char} (h : d.isDigit = true) : d ∈ written := by
  have hsubset : "0123456789".toList ⊆ written := by decide
  exact hsubset (mem_digits_of_isDigit h)

theorem zeros_subset (k : Nat) : List.replicate k '0' ⊆ written :=
  fun _ hd => mem_written_of_isDigit (isDigit_of_mem_zeros _ hd)

theorem toDigits_subset (k : Nat) : Nat.toDigits 10 k ⊆ written :=
  fun _ hd => mem_written_of_isDigit (isDigit_of_mem_toDigits hd)

theorem positional_subset (h : digits ⊆ written) (point : Int) :
    standard.positional digits point ⊆ written := by
  have hzero : '0' ∈ written := by decide
  have hpoint : '.' ∈ written := by decide
  have hend : standard.integerEnd.toList ⊆ written := by decide
  have htake := List.Subset.trans (List.take_subset point.toNat digits) h
  have hdrop := List.Subset.trans (List.drop_subset point.toNat digits) h
  unfold positional
  split
  · simp [hzero, hpoint, h, zeros_subset]
  split
  · simp [h, hend, zeros_subset]
  · simp [htake, hdrop, hpoint]

theorem scientific_subset (h : digits ⊆ written) (e : Int) :
    standard.scientific digits e ⊆ written := by
  have hpoint : '.' ∈ written := by decide
  have hmark : standard.mark ∈ written := by decide
  have hexponent : standard.exponentDigits e ⊆ written := by
    have hsign : (if e < 0 then '-' else '+') ∈ written := by split <;> decide
    simp [exponentDigits, hsign, zeros_subset, toDigits_subset]
  unfold scientific
  split
  · next d f rest =>
    simp only [List.cons_subset] at h
    simp [h, hpoint, hmark, hexponent]
  · simp [h, hmark, hexponent]

theorem units_subset (n : Nat) : standard.units n ⊆ written := by
  unfold units
  split
  · decide
  · simp only [decimal]
    have hdigits : trimZeros (Nat.toDigits 10 (shortest n).coefficient) ⊆ written := by
      obtain ⟨t, ht⟩ := exists_trimZeros (Nat.toDigits 10 (shortest n).coefficient)
      have hall := toDigits_subset (shortest n).coefficient
      rw [ht, List.append_subset] at hall
      exact hall.1
    split
    · exact positional_subset hdigits _
    · exact scientific_subset hdigits _

theorem startsWithDigit_positional (h : IsNumeral digits) (point : Int) :
    ∃ d rest, standard.positional digits point = d :: rest ∧ d.isDigit = true := by
  cases digits with
  | nil => exact absurd rfl h.ne
  | cons d rest =>
    have hd := h.digit d List.mem_cons_self
    unfold positional
    split
    · exact ⟨'0', _, rfl, rfl⟩
    split
    · exact ⟨d, _, rfl, hd⟩
    · obtain ⟨k, hk⟩ : ∃ k, point.toNat = k + 1 := ⟨point.toNat - 1, by omega⟩
      rw [hk]
      exact ⟨d, _, rfl, hd⟩

theorem startsWithDigit_scientific (h : IsNumeral digits) (e : Int) :
    ∃ d rest, standard.scientific digits e = d :: rest ∧ d.isDigit = true := by
  have hdigit := h.digit
  unfold scientific
  split
  · exact ⟨_, _, rfl, hdigit _ List.mem_cons_self⟩
  · cases digits with
    | nil => exact absurd rfl h.ne
    | cons d rest => exact ⟨d, _, rfl, hdigit d List.mem_cons_self⟩

theorem startsWithDigit_units (hn : Fits n) :
    ∃ d rest, standard.units n = d :: rest ∧ d.isDigit = true := by
  unfold units
  split
  · exact ⟨'0', _, rfl, rfl⟩
  · next hne =>
    obtain ⟨c, j, hshortest, hc, -⟩ := exists_shortest (dvd_of_fits hn) (Nat.pos_of_ne_zero hne)
    obtain ⟨t, hnumeral, -, -⟩ := exists_numeral hc
    rw [hshortest]
    simp only [decimal]
    split
    · exact startsWithDigit_positional hnumeral _
    · exact startsWithDigit_scientific hnumeral _

end FloatLayout

namespace Binary64

open FloatLayout

theorem text_subset (x : Binary64) : x.text.toList ⊆ written := by
  cases x with
  | nan => decide
  | infinite s => cases s <;> decide
  | finite s n hn =>
    have hsign : (if s then ['-'] else []) ⊆ written := by cases s <;> decide
    simp only [text, write, String.toList_ofList, List.append_subset]
    exact ⟨hsign, units_subset n⟩

/-! ## Reading a text -/

theorem trimBlanks_of_subset {cs : List Char} (h : cs ⊆ written) : Text.trimBlanks cs = cs := by
  have hkeep {ds : List Char} (hds : ds ⊆ written) : ds.dropWhile Text.isBlank = ds := by
    cases ds with
    | nil => rfl
    | cons c ds =>
      have hall : written.all (!Text.isBlank ·) = true := by decide
      have hc := List.all_eq_true.1 hall c (hds List.mem_cons_self)
      rw [Bool.not_eq_true'] at hc
      rw [List.dropWhile_cons, hc]
      rfl
  unfold Text.trimBlanks
  rw [hkeep h, hkeep (fun c hc => h (List.mem_reverse.1 hc)), List.reverse_reverse]

theorem asciiDigits_of_subset {cs : List Char} (h : cs ⊆ written) : asciiDigits cs = cs := by
  have hall : written.all (fun c => asciiDigits [c] == [c]) = true := by decide
  induction cs with
  | nil => rfl
  | cons c rest ih =>
    rw [List.cons_subset] at h
    have hc : asciiDigits [c] = [c] := beq_iff_eq.1 (List.all_eq_true.1 hall c h.1)
    calc asciiDigits (c :: rest) = asciiDigits [c] ++ asciiDigits rest := rfl
      _ = c :: rest := by rw [hc, ih h.2, List.singleton_append]

theorem joinGroups_of_subset {cs : List Char} (h : cs ⊆ written) :
    Text.joinGroups cs = some cs := by
  have hunderscore : '_' ∉ written := by decide
  induction cs with
  | nil => rfl
  | cons c rest ih =>
    rw [List.cons_subset] at h
    unfold Text.joinGroups
    split
    · exact absurd h.1 hunderscore
    · exact absurd (h.2 List.mem_cons_self) hunderscore
    · rw [ih h.2]
      rfl

/-- Digits are neither a sign nor a word. -/
theorem ofText?_digits {d : Char} {rest : List Char} (hd : d.isDigit = true)
    (h : d :: rest ⊆ written) (s : Bool) :
    ofText? (String.ofList ((if s then ['-'] else []) ++ d :: rest)) = plain? s (d :: rest) := by
  have hsign : (if s then ['-'] else []) ⊆ written := by cases s <;> decide
  have hall : (if s then ['-'] else []) ++ d :: rest ⊆ written := List.append_subset.2 ⟨hsign, h⟩
  have hmarks : "0123456789".toList.all (fun d =>
      d != '-' && d != '+' && d.toLower != 'i' && d.toLower != 'n') = true := by decide
  have hmark := List.all_eq_true.1 hmarks d (mem_digits_of_isDigit hd)
  simp only [Bool.and_eq_true, bne_iff_ne] at hmark
  obtain ⟨⟨⟨hminus, hplus⟩, hi⟩, hn⟩ := hmark
  have hsplit : Text.splitSign ((if s then ['-'] else []) ++ d :: rest) = (s, d :: rest) := by
    cases s with
    | true => rfl
    | false => simp [Text.splitSign, hminus, hplus]
  have hword {word : String} {c : Char} {cs : List Char} (hlist : word.toList = c :: cs)
      (heq : String.ofList ((d :: rest).map Char.toLower) = word) : d.toLower = c := by
    have hchars := congrArg String.toList heq
    rw [String.toList_ofList, hlist] at hchars
    exact (List.cons.inj hchars).1
  unfold ofText?
  rw [String.toList_ofList, trimBlanks_of_subset hall, asciiDigits_of_subset hall,
    joinGroups_of_subset hall]
  simp only [Option.bind_eq_bind, Option.bind_some, hsplit]
  split
  · next heq => exact absurd (hword rfl heq) hi
  · next heq => exact absurd (hword rfl heq) hi
  · next heq => exact absurd (hword rfl heq) hn
  · rfl

/-- The text of a number is read as this number. -/
theorem ofText?_text (x : Binary64) : ofText? x.text = some x := by
  cases x with
  | nan => decide +kernel
  | infinite s => cases s <;> decide +kernel
  | finite s n hn =>
    obtain ⟨d, rest, hunits, hd⟩ := startsWithDigit_units hn
    have hsubset := units_subset n
    have hread := plain?_units s hn
    rw [hunits] at hsubset hread
    have htext : (finite s n hn).text
        = String.ofList ((if s then ['-'] else []) ++ standard.units n) := rfl
    rw [htext, hunits, ofText?_digits hd hsubset]
    exact hread

theorem text_inj {x y : Binary64} (h : x.text = y.text) : x = y := by
  have hread := ofText?_text x
  rw [h, ofText?_text] at hread
  exact (Option.some.inj hread).symm

end Binary64

end Measures
