import Measures.Binary64.Basic
import Measures.Text.Blank
import Measures.Text.Digit

/-!
# Numbers from text

Blanks at the ends are dropped. What is left is a sign and one of the words `inf`, `infinity` and
`nan` in any case, or digits of any script with a point and an exponent, where single underscores
may stand between digits. The number nearest to what the digits say is taken.
-/

namespace Measures.Binary64

/-! ## Digits to a number -/

/-- The number nearest to `digits · 10 ^ exponent`. The early cases only keep the powers small. -/
def ofDecimal (negative : Bool) (digits : List Nat) (exponent : Int) : Binary64 :=
  let digits := digits.dropWhile (· == 0)
  let top := (digits.length : Int) + exponent
  if digits = [] ∨ top < -400 then zero negative
  else if 400 < top then .infinite negative
  else if 0 ≤ exponent then
    ofRatio negative (Text.ofDigits digits * Nat.pow 10 exponent.toNat * one) 1
  else ofRatio negative (Text.ofDigits digits * one) (Nat.pow 10 (-exponent).toNat)

/-! ## The form of a text -/

def asciiDigits (cs : List Char) : List Char :=
  cs.map fun c => match Text.digit? c with
    | some d => Char.ofNat ('0'.toNat + d)
    | none => c

def exponent? : List Char → Option Int
  | [] => some 0
  | e :: rest =>
    if e = 'e' ∨ e = 'E' then
      let (negative, rest) := Text.splitSign rest
      match Text.spanDigits rest with
      | ([], _) => none
      | (ds, []) => some (signed negative (Text.ofDigits ds))
      | _ => none
    else none

/-- Digits with at most one point among them, and an exponent. -/
def plain? (negative : Bool) (cs : List Char) : Option Binary64 :=
  let (whole, rest) := Text.spanDigits cs
  let (fraction, rest) := match rest with
    | '.' :: after => Text.spanDigits after
    | rest => ([], rest)
  if whole = [] ∧ fraction = [] then none
  else (exponent? rest).map fun e => ofDecimal negative (whole ++ fraction) (e - fraction.length)

def ofText? (s : String) : Option Binary64 := do
  let cs ← Text.joinGroups (asciiDigits (Text.trimBlanks s.toList))
  let (negative, rest) := Text.splitSign cs
  match String.ofList (rest.map Char.toLower) with
  | "inf" | "infinity" => some (.infinite negative)
  | "nan" => some .nan
  | _ => plain? negative rest

end Measures.Binary64
