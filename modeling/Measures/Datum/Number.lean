import Measures.Binary64.Reading
import Measures.Fault
import Measures.Scalar

/-!
# Data as numbers

How data become numbers, add up and index tables.
-/

namespace Measures.Datum

/-! ## Conversion -/

def floatOfInt (i : Int) : Except Fault Binary64 :=
  (Binary64.ofInt? i).elim (.error .integerTooLarge) .ok

/-- The float of a number of any kind; what is no number fails with `otherwise` of its type. -/
def realOr (otherwise : String → Fault) (d : Datum) : Except Fault Binary64 :=
  match d with
  | .float x => .ok x
  | d => match d.integer? with
    | some i => floatOfInt i
    | Option.none => .error (otherwise d.typeName)

def real (d : Datum) : Except Fault Binary64 := d.realOr .notReal

/-- The float of the value of a quantity, which may also be given as text. -/
def toFloat (d : Datum) : Except Fault Binary64 :=
  match d.text? with
  | some s => match Binary64.ofText? s with
    | some x => .ok x
    | Option.none => .error (.notNumberText d.literal)
  | Option.none => d.realOr .notConvertible

/-! ## Tables -/

/-- A list cannot be looked up in a table. -/
def asKey (d : Datum) : Except Fault Datum :=
  match d with
  | .list _ => .error (.unhashable d.typeName)
  | d => .ok d

/-! ## Operators -/

/-- The result of an operator on two data: integers give what `int` gives, other numbers are
converted to floats first. -/
def combineNumbers (operator : String) (int : Int → Int → Except Fault Datum)
    (float : Binary64 → Binary64 → Binary64) (d e : Datum) : Except Fault Datum :=
  match d.integer?, e.integer? with
  | some i, some j => int i j
  | _, _ =>
    if d.isNumber && e.isNumber then do
      let x ← d.real
      let y ← e.real
      return .float (float x y)
    else .error (.unsupportedOperands operator d.typeName e.typeName)

def addNumbers (d e : Datum) : Except Fault Datum :=
  combineNumbers "+" (fun i j => .ok (.int (i + j))) (· + ·) d e

/-- The sum of two data: numbers add up, texts and lists are joined. -/
def plus (d e : Datum) : Except Fault Datum :=
  match d, e with
  | .list xs, .list ys => .ok (.list (xs ++ ys))
  | .list _, e => .error (.cannotConcatenate "list" e.typeName)
  | d, e => match d.text?, e.text? with
    | some s, some t => .ok (.text (s ++ t))
    | some _, Option.none => .error (.cannotConcatenate "str" e.typeName)
    | Option.none, _ => addNumbers d e

/-- The difference of two data, which have to be numbers. -/
def minus (d e : Datum) : Except Fault Datum :=
  combineNumbers "-" (fun i j => .ok (.int (i - j))) (· - ·) d e

@[simp] theorem plus_int (i j : Int) : plus (.int i) (.int j) = .ok (.int (i + j)) := rfl

@[simp] theorem minus_int (i j : Int) : minus (.int i) (.int j) = .ok (.int (i - j)) := rfl

end Measures.Datum
