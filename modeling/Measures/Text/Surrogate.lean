/-!
# Unpaired surrogates

A surrogate that is not one of a pair is no character, but an escape can write one. A text holds it
as the private character whose code is 0x100000 above its own.
-/

namespace Measures.Text

def isHighSurrogate (unit : Nat) : Bool := 0xd800 ≤ unit && unit < 0xdc00

def isLowSurrogate (unit : Nat) : Bool := 0xdc00 ≤ unit && unit < 0xe000

def ofPair (high low : Nat) : Char :=
  Char.ofNat (0x10000 + (high - 0xd800) * 0x400 + (low - 0xdc00))

/-- The character of a code unit, which stands for an unpaired surrogate if it is one. -/
def ofUnit (unit : Nat) : Char :=
  if isHighSurrogate unit || isLowSurrogate unit then Char.ofNat (0x100000 + unit)
  else Char.ofNat unit

def surrogate? (c : Char) : Option Nat :=
  if 0x10d800 ≤ c.toNat ∧ c.toNat < 0x10e000 then some (c.toNat - 0x100000) else none

def hasSurrogate (s : String) : Bool := s.toList.any fun c => (surrogate? c).isSome

/-- The surrogate of a code unit is the unit itself. -/
theorem surrogate?_ofUnit {unit : Nat} (low : 0xd800 ≤ unit) (high : unit < 0xe000) :
    surrogate? (ofUnit unit) = some unit := by
  have valid : (0x100000 + unit).isValidChar := Or.inr ⟨by omega, by omega⟩
  have code : (Char.ofNat (0x100000 + unit)).toNat = 0x100000 + unit := by
    rw [Char.ofNat, dif_pos valid]
    rfl
  have half : (isHighSurrogate unit || isLowSurrogate unit) = true := by
    simp only [isHighSurrogate, isLowSurrogate, Bool.or_eq_true, Bool.and_eq_true,
      decide_eq_true_eq]
    omega
  simp only [ofUnit, half, if_true, surrogate?, code]
  rw [if_pos ⟨by omega, by omega⟩]
  simp

end Measures.Text
