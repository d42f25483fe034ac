import Measures.Text.Printable
import Measures.Text.Surrogate

/-!
# Quoted text

Text stands in single quotes, in double quotes if it holds single quotes and no double ones. The
quote, the backslash and what is not printable are written as escapes.
-/

namespace Measures.Text

def quoteFor (cs : List Char) : Char :=
  if cs.contains '\'' && !cs.contains '"' then '"' else '\''

/-- A number in lower-case hexadecimal digits, filled up with zeros to `width`. -/
def hex (width n : Nat) : List Char :=
  let digits := Nat.toDigits 16 n
  List.replicate (width - digits.length) '0' ++ digits

/-- The number of a character in an escape; an unpaired surrogate has its own. -/
def codeOf (c : Char) : Nat := (surrogate? c).getD c.toNat

def escapeChar (quote c : Char) : List Char :=
  if c = quote ∨ c = '\\' then ['\\', c]
  else if c = '\n' then ['\\', 'n']
  else if c = '\r' then ['\\', 'r']
  else if c = '\t' then ['\\', 't']
  else if isPrintable c then [c]
  else if codeOf c < 0x100 then '\\' :: 'x' :: hex 2 (codeOf c)
  else if codeOf c < 0x10000 then '\\' :: 'u' :: hex 4 (codeOf c)
  else '\\' :: 'U' :: hex 8 (codeOf c)

def quoted (s : String) : String :=
  let q := quoteFor s.toList
  String.ofList (q :: s.toList.flatMap (escapeChar q) ++ [q])

end Measures.Text
