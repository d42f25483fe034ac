import Measures.Binary64.Shortest

/-!
# The text of a number

The shortest digits that read back, laid out by `FloatLayout`.
-/

namespace Measures

structure FloatLayout where
  /-- The least exponent that is written with a point alone. -/
  leastPositional : Int
  /-- The least exponent above those. -/
  positionalEnd : Int
  integerEnd : String
  mark : Char
  exponentWidth : Nat
  infinity : String
  notANumber : String

/-- From `0.0001` up to below `1e+16` with a point alone, integers with `.0`. -/
def FloatLayout.standard : FloatLayout where
  leastPositional := -4
  positionalEnd := 16
  integerEnd := ".0"
  mark := 'e'
  exponentWidth := 2
  infinity := "inf"
  notANumber := "nan"

namespace FloatLayout

def trimZeros (digits : List Char) : List Char :=
  (digits.reverse.dropWhile (· == '0')).reverse

/-- Digits with a point after the first `point` of them, filled up with zeros on either side. -/
def positional (l : FloatLayout) (digits : List Char) (point : Int) : List Char :=
  if point ≤ 0 then '0' :: '.' :: List.replicate (-point).toNat '0' ++ digits
  else if digits.length ≤ point.toNat then
    digits ++ List.replicate (point.toNat - digits.length) '0' ++ l.integerEnd.toList
  else digits.take point.toNat ++ '.' :: digits.drop point.toNat

def exponentDigits (l : FloatLayout) (e : Int) : List Char :=
  let digits := Nat.toDigits 10 e.natAbs
  (if e < 0 then '-' else '+') :: List.replicate (l.exponentWidth - digits.length) '0' ++ digits

/-- Digits with a point after the first one, and an exponent. -/
def scientific (l : FloatLayout) (digits : List Char) (e : Int) : List Char :=
  let body := match digits with
    | d :: e :: rest => d :: '.' :: e :: rest
    | short => short
  body ++ l.mark :: l.exponentDigits e

def decimal (l : FloatLayout) (d : Decimal) : List Char :=
  let all := Nat.toDigits 10 d.coefficient
  let point := (all.length : Int) + d.exponent
  let digits := trimZeros all
  if l.leastPositional ≤ point - 1 ∧ point - 1 < l.positionalEnd then l.positional digits point
  else l.scientific digits (point - 1)

def units (l : FloatLayout) (n : Nat) : List Char :=
  if n = 0 then '0' :: l.integerEnd.toList else l.decimal (Binary64.shortest n)

def write (l : FloatLayout) : Binary64 → String
  | .nan => l.notANumber
  | .infinite s => (if s then "-" else "") ++ l.infinity
  | .finite s n _ => String.ofList ((if s then ['-'] else []) ++ l.units n)

end FloatLayout

def Binary64.text (x : Binary64) : String := FloatLayout.standard.write x

end Measures
