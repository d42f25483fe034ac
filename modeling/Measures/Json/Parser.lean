import Measures.Json.Basic
import Measures.Binary64.Reading
import Measures.Text.Digit
import Measures.Text.Surrogate

/-!
# JSON text

The grammar of JSON with the words `NaN`, `Infinity` and `-Infinity` added. The last value of a
repeated key counts. Two escapes in a row that are a pair of surrogates are one character.
-/

namespace Measures.Json

inductive ParseError where
  | malformed
  /-- An integer with more digits than can be converted. -/
  | integerTooLong (digits : Nat)
  /-- An array or an object inside too many others. -/
  | nestedTooDeep (container : String)
  deriving DecidableEq, Repr

namespace Parser

/-- An integer may have this many digits. -/
def maxIntegerDigits : Nat := 4300

/-- Arrays and objects may stand in one another this many times. -/
def maxNesting : Nat := 988

/-! ## Blanks and words -/

def isSpace (c : Char) : Bool := c = ' ' || c = '\t' || c = '\n' || c = '\r'

def skipSpace (cs : List Char) : List Char := cs.dropWhile isSpace

def afterWord? (word : String) (cs : List Char) : Option (List Char) :=
  if word.toList.isPrefixOf cs then some (cs.drop word.length) else none

/-! ## Strings -/

/-- The character of an escaped code unit, of two if they are a pair of surrogates. -/
def unicodeEscape? (cs : List Char) : Option (Char × List Char) := do
  let (unit, rest) ← Text.hexNumber? 4 0 cs
  if Text.isHighSurrogate unit then
    if let '\\' :: 'u' :: more := rest then
      let (low, after) ← Text.hexNumber? 4 0 more
      if Text.isLowSurrogate low then return (Text.ofPair unit low, after)
  return (Text.ofUnit unit, rest)

def escape? : List Char → Option (Char × List Char)
  | '"' :: rest => some ('"', rest)
  | '\\' :: rest => some ('\\', rest)
  | '/' :: rest => some ('/', rest)
  | 'b' :: rest => some ('\x08', rest)
  | 'f' :: rest => some ('\x0c', rest)
  | 'n' :: rest => some ('\n', rest)
  | 'r' :: rest => some ('\r', rest)
  | 't' :: rest => some ('\t', rest)
  | 'u' :: rest => unicodeEscape? rest
  | _ => none

def stringBody : Nat → List Char → Except ParseError (List Char × List Char)
  | 0, _ | _, [] => .error .malformed
  | _, '"' :: rest => .ok ([], rest)
  | fuel + 1, '\\' :: rest =>
    match escape? rest with
    | some (c, rest) => (stringBody fuel rest).map fun (cs, after) => (c :: cs, after)
    | none => .error .malformed
  | fuel + 1, c :: rest =>
    if c.toNat < 0x20 then .error .malformed
    else (stringBody fuel rest).map fun (cs, after) => (c :: cs, after)

def string (fuel : Nat) (cs : List Char) : Except ParseError (String × List Char) :=
  (stringBody fuel cs).map fun (body, after) => (String.ofList body, after)

/-! ## Numbers -/

/-- The digits of an integer at the front: a zero alone, or a run that begins with another digit. -/
def integerDigits? (cs : List Char) : Option (List Nat × List Char) :=
  match cs with
  | '0' :: rest => some ([0], rest)
  | cs => match Text.spanDigits cs with
    | ([], _) => none
    | digits => some digits

def fractionDigits (cs : List Char) : List Nat × List Char :=
  match cs with
  | '.' :: rest => match Text.spanDigits rest with
    | ([], _) => ([], cs)
    | digits => digits
  | cs => ([], cs)

def exponentPart (cs : List Char) : Option Int × List Char :=
  match cs with
  | [] => (none, cs)
  | e :: rest =>
    if e = 'e' ∨ e = 'E' then
      let (negative, digits) := Text.splitSign rest
      match Text.spanDigits digits with
      | ([], _) => (none, cs)
      | (ds, after) => (some (Binary64.signed negative (Text.ofDigits ds)), after)
    else (none, cs)

/-- A number whose sign was read; with a fraction or an exponent it is a float. -/
def number (negative : Bool) (cs : List Char) : Except ParseError (Json × List Char) :=
  match integerDigits? cs with
  | none => .error .malformed
  | some (whole, rest) =>
    let (fraction, rest) := fractionDigits rest
    let (exponent, rest) := exponentPart rest
    if fraction.isEmpty && exponent.isNone then
      if maxIntegerDigits < whole.length then .error (.integerTooLong whole.length)
      else .ok (.int (Binary64.signed negative (Text.ofDigits whole)), rest)
    else
      let x := Binary64.ofDecimal negative (whole ++ fraction)
        (exponent.getD 0 - fraction.length)
      .ok (.float x, rest)

def scalar (cs : List Char) : Except ParseError (Json × List Char) :=
  let words : List (String × Json) :=
    [("null", .null), ("true", .bool true), ("false", .bool false), ("NaN", .float .nan),
      ("Infinity", .float (.infinite false)), ("-Infinity", .float (.infinite true))]
  match words.findSome? fun (word, value) => (afterWord? word cs).map (value, ·) with
  | some found => .ok found
  | none => match cs with
    | '-' :: rest => number true rest
    | cs => number false cs

/-! ## Values -/

mutual

/-- A value at the front, without blanks before it, in which `room` arrays and objects may stand in
one another. Each step reads a character, so that twice the length of the text is enough fuel. -/
def value : Nat → Nat → List Char → Except ParseError (Json × List Char)
  | 0, _, _ => .error .malformed
  | fuel + 1, _, '"' :: rest => (string fuel rest).map fun (s, after) => (.str s, after)
  | _ + 1, 0, '[' :: _ => .error (.nestedTooDeep "array")
  | fuel + 1, room + 1, '[' :: rest =>
    match skipSpace rest with
    | ']' :: after => .ok (.arr [], after)
    | rest => (items fuel room rest).map fun (js, after) => (.arr js, after)
  | _ + 1, 0, '\x7b' :: _ => .error (.nestedTooDeep "object")
  | fuel + 1, room + 1, '\x7b' :: rest =>
    match skipSpace rest with
    | '\x7d' :: after => .ok (.obj [], after)
    | rest => (members fuel room rest).map fun (pairs, after) => (.obj (ofPairs pairs), after)
  | _ + 1, _, cs => scalar cs

def items : Nat → Nat → List Char → Except ParseError (List Json × List Char)
  | 0, _, _ => .error .malformed
  | fuel + 1, room, cs => do
    let (j, rest) ← value fuel room cs
    match skipSpace rest with
    | ']' :: after => return ([j], after)
    | ',' :: more =>
      let (js, after) ← items fuel room (skipSpace more)
      return (j :: js, after)
    | _ => .error .malformed

def members : Nat → Nat → List Char → Except ParseError (List (String × Json) × List Char)
  | 0, _, _ => .error .malformed
  | fuel + 1, room, cs =>
    match cs with
    | '"' :: rest => do
      let (key, rest) ← string fuel rest
      match skipSpace rest with
      | ':' :: rest =>
        let (j, rest) ← value fuel room (skipSpace rest)
        match skipSpace rest with
        | '\x7d' :: after => return ([(key, j)], after)
        | ',' :: more =>
          let (pairs, after) ← members fuel room (skipSpace more)
          return ((key, j) :: pairs, after)
        | _ => .error .malformed
      | _ => .error .malformed
    | _ => .error .malformed

end

end Parser

def parse (text : String) : Except ParseError Json := do
  let cs := text.toList
  let (j, rest) ← Parser.value (2 * cs.length + 1) Parser.maxNesting (Parser.skipSpace cs)
  if (Parser.skipSpace rest).isEmpty then return j else .error .malformed

end Measures.Json
