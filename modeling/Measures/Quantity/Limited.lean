import Measures.Quantity.Query

/-!
# Texts with a limit

An integer of too many digits is not written, and every text that it would stand in fails. Under
this limit data are written, and with them names and texts.
-/

namespace Measures

/-! ## Data -/

namespace Datum

/-- Integers with more digits are not written. -/
def maxWrittenDigits : Nat := 4300

def isWritableInteger (i : Int) : Bool :=
  (Nat.toDigits 10 i.natAbs).length ≤ maxWrittenDigits

mutual

/-- The integers that the text of a datum shows. -/
def integers : Datum → List Int
  | .int i => [i]
  | .list items => integersOf items
  | _ => []

def integersOf : List Datum → List Int
  | [] => []
  | d :: rest => integers d ++ integersOf rest

end

def isWritable (d : Datum) : Bool := d.integers.all isWritableInteger

mutual

def limitedLiteral : Writing (Except Fault)
  | .int i => if isWritableInteger i then .ok (toString i) else .error .integerTooLong
  | .list items => (limitedLiterals items).map fun shown => "[" ++ ", ".intercalate shown ++ "]"
  | d => .ok d.literal

def limitedLiterals : List Datum → Except Fault (List String)
  | [] => .ok []
  | d :: rest => do
    let shown ← limitedLiteral d
    return shown :: (← limitedLiterals rest)

end

end Datum

/-! ## Answers -/

namespace Query

/-- The questions that are answered in words. -/
def diagnostics : List Query := [text, fullText, unitName, madeUnitName, literalUnitName]

/-- The answer under the limit; what is not answered in words does not meet it. -/
def limited (q : Quantity) : Query → Except Fault Datum
  | text => (Writing.text Datum.limitedLiteral q).map .text
  | fullText => (Writing.fullText Datum.limitedLiteral q).map .text
  | unitName => (Writing.unitName Datum.limitedLiteral q.unit.datum).map .text
  | madeUnitName => (Writing.unitName Datum.limitedLiteral q.madeUnit.datum).map .text
  | literalUnitName => (Writing.literalUnitName Datum.limitedLiteral q).map .text
  | query => query.answer q

end Query

end Measures
