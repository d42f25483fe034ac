import Measures.Binary64.Reading
import Measures.Proofs.Binary64.Shortest

/-!
# What the digits of a text are read as

Zeros in front of the digits are dropped, and zeros behind them only move the exponent.
-/

namespace Measures

namespace Text

variable {ds rest : List Char} {c : Char}

/-! ## Digits -/

def digitValue (c : Char) : Nat := c.toNat - '0'.toNat

theorem isDigit_iff (c : Char) : c.isDigit = true ↔ 48 ≤ c.toNat ∧ c.toNat ≤ 57 := by
  unfold Char.isDigit
  simp only [Bool.and_eq_true, decide_eq_true_eq]
  exact Iff.rfl

theorem asciiDigit?_of_isDigit (h : c.isDigit = true) : asciiDigit? c = some (digitValue c) :=
  if_pos ((isDigit_iff c).1 h)

/-- A run of digits ends where no digit follows. -/
theorem spanDigits_append (hds : ∀ c ∈ ds, c.isDigit = true)
    (hrest : ∀ c ∈ rest.head?, asciiDigit? c = none) :
    spanDigits (ds ++ rest) = (ds.map digitValue, rest) := by
  induction ds with
  | nil =>
    cases rest with
    | nil => rfl
    | cons c rest => simp [spanDigits, hrest c rfl]
  | cons d ds ih =>
    have hd := asciiDigit?_of_isDigit (hds d List.mem_cons_self)
    have hspan := ih fun c hc => hds c (List.mem_cons_of_mem d hc)
    simp only [List.cons_append, spanDigits, hd, hspan, List.map_cons]

theorem ofDigits_map (ds : List Char) :
    ofDigits (ds.map digitValue) = Nat.ofDigitChars 10 ds 0 := by
  rw [ofDigits, List.foldl_map, Nat.ofDigitChars_eq_foldl]
  rfl

theorem ofDigits_append_zeros (ds : List Nat) (b : Nat) :
    ofDigits (ds ++ List.replicate b 0) = ofDigits ds * Nat.pow 10 b := by
  induction b with
  | zero => simp [ofDigits]
  | succ b ih =>
    rw [List.replicate_succ', ← List.append_assoc, ofDigits, List.foldl_concat]
    change 10 * ofDigits (ds ++ List.replicate b 0) + 0 = _
    rw [ih, Nat.add_zero, Nat.mul_left_comm, Nat.mul_comm 10]
    rfl

end Text

namespace Binary64

variable {ds fs rest : List Char} {s : Bool} {e : Int} {t j : Nat}

/-! ## Decimals -/

theorem powTwo_mul_powFive (k : Nat) : Nat.pow 2 k * Nat.pow 5 k = Nat.pow 10 k :=
  (Nat.mul_pow 2 5 k).symm

theorem one_mul_fine : one * fine = Nat.pow 10 fractionBits := by
  unfold one fine
  exact powTwo_mul_powFive fractionBits

theorem ofRatio_congr {num den num' den' : Nat} (h : 0 < den) (h' : 0 < den')
    (heq : num * den' = num' * den) : ofRatio s num den = ofRatio s num' den' := by
  rw [ofRatio, ofRatio, roundUnits_congr h h' heq]

theorem powTen_pos (k : Nat) : 0 < Nat.pow 10 k := Nat.pow_pos (by decide)

theorem dropWhile_zeros {digits : List Nat} (hne : digits ≠ []) (hhead : digits.head? ≠ some 0)
    (a b : Nat) :
    (List.replicate a 0 ++ digits ++ List.replicate b 0).dropWhile (· == 0)
      = digits ++ List.replicate b 0 := by
  induction a with
  | zero =>
    cases digits with
    | nil => exact absurd rfl hne
    | cons d digits => simp_all
  | succ a ih => simpa [List.replicate_succ] using ih

/-- Digits with zeros on both sides, read with an exponent. -/
theorem ofDecimal_zeros (s : Bool) {digits : List Nat} (hne : digits ≠ [])
    (hhead : digits.head? ≠ some 0) (a b : Nat) (hlow : -400 ≤ digits.length + b + e)
    (hhigh : digits.length + b + e ≤ 400) (hexponent : b + e + fractionBits = t + j) :
    ofDecimal s (List.replicate a 0 ++ digits ++ List.replicate b 0) e
      = ofRatio s (Text.ofDigits digits * Nat.pow 10 t * Nat.pow 10 j) fine := by
  have hlength : ((digits ++ List.replicate b 0).length : Int) = digits.length + b := by simp
  unfold ofDecimal
  simp only [dropWhile_zeros hne hhead, hlength, List.append_eq_nil_iff, hne, false_and, false_or,
    Text.ofDigits_append_zeros]
  rw [if_neg (by omega), if_neg (by omega)]
  split
  · apply ofRatio_congr Nat.one_pos fine_pos
    simp only [Nat.mul_assoc, one_mul_fine, powTen_mul, Nat.mul_one]
    congr 2
    omega
  · apply ofRatio_congr (powTen_pos _) fine_pos
    simp only [Nat.mul_assoc, one_mul_fine, powTen_mul]
    congr 2
    omega

/-! ## The form of a text -/

/-- What follows the digits of a text is nothing or an exponent. -/
def IsTail (tail : List Char) : Prop := ∀ c ∈ tail.head?, c = 'e'

theorem asciiDigit?_of_isTail (h : IsTail rest) : ∀ c ∈ rest.head?, Text.asciiDigit? c = none := by
  intro c hc
  rw [h c hc]
  rfl

theorem plain?_whole (s : Bool) (hds : ∀ c ∈ ds, c.isDigit = true) (hne : ds ≠ [])
    (htail : IsTail rest) :
    plain? s (ds ++ rest) = (exponent? rest).map (ofDecimal s (ds.map Text.digitValue)) := by
  have hspan := Text.spanDigits_append hds (asciiDigit?_of_isTail htail)
  unfold plain?
  rw [hspan]
  cases rest with
  | nil => simp [hne]
  | cons c rest =>
    obtain rfl : c = 'e' := htail c rfl
    simp [hne]

theorem plain?_point (s : Bool) (hds : ∀ c ∈ ds, c.isDigit = true) (hne : ds ≠ [])
    (hfs : ∀ c ∈ fs, c.isDigit = true) (htail : IsTail rest) :
    plain? s (ds ++ '.' :: (fs ++ rest)) = (exponent? rest).map fun e =>
      ofDecimal s (ds.map Text.digitValue ++ fs.map Text.digitValue) (e - fs.length) := by
  have hpoint : ∀ c ∈ ('.' :: (fs ++ rest)).head?, Text.asciiDigit? c = none := by
    intro c hc
    obtain rfl := Option.some.inj hc
    rfl
  have hspan := Text.spanDigits_append hds hpoint
  have hfraction := Text.spanDigits_append hfs (asciiDigit?_of_isTail htail)
  simp [plain?, hspan, hfraction, hne]

theorem plain?_fixed (s : Bool) (hds : ∀ c ∈ ds, c.isDigit = true) (hne : ds ≠ [])
    (hfs : ∀ c ∈ fs, c.isDigit = true) :
    plain? s (ds ++ '.' :: fs)
      = some (ofDecimal s (ds.map Text.digitValue ++ fs.map Text.digitValue) (-fs.length)) := by
  have htail : IsTail [] := nofun
  have hread := plain?_point s hds hne hfs htail
  rw [List.append_nil] at hread
  rw [hread, exponent?, Option.map_some, Int.zero_sub]

theorem exponent?_digits (hds : ∀ c ∈ ds, c.isDigit = true) (hne : ds ≠ []) (negative : Bool) :
    exponent? ('e' :: (if negative then '-' else '+') :: ds)
      = some (signed negative (Nat.ofDigitChars 10 ds 0)) := by
  have hspan : Text.spanDigits (ds ++ []) = (ds.map Text.digitValue, []) :=
    Text.spanDigits_append hds nofun
  have hsign : Text.splitSign ((if negative then '-' else '+') :: ds) = (negative, ds) := by
    cases negative <;> rfl
  rw [List.append_nil] at hspan
  simp only [exponent?, true_or, if_true, hsign, hspan]
  split
  · next h => simp [hne] at h
  · next h =>
    obtain ⟨rfl, -⟩ := Prod.mk.inj h
    rw [Text.ofDigits_map]
  · next h => simp at h

end Binary64

end Measures
