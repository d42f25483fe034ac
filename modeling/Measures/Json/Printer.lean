import Measures.Binary64.Text
import Measures.Json.Basic
import Measures.Text.Quoted

/-!
# JSON as text

One line without blanks. Floats are written with the fewest digits that read back; NaN and the
infinities are words.
-/

namespace Measures.Json

def floatLayout : FloatLayout :=
  { FloatLayout.standard with infinity := "Infinity", notANumber := "NaN" }

def escaped (c : Char) : List Char :=
  if c = '"' ∨ c = '\\' then ['\\', c]
  else if c.toNat < 0x20 then '\\' :: 'u' :: Text.hex 4 c.toNat
  else match Text.surrogate? c with
    | some unit => '\\' :: 'u' :: Text.hex 4 unit
    | none => [c]

def writeString (s : String) : String :=
  String.ofList ('"' :: s.toList.flatMap escaped ++ ['"'])

mutual

def write : Json → String
  | .null => "null"
  | .bool b => if b then "true" else "false"
  | .int i => toString i
  | .float x => floatLayout.write x
  | .str s => writeString s
  | .arr items => "[" ++ ",".intercalate (writeItems items) ++ "]"
  | .obj members => "\x7b" ++ ",".intercalate (writeMembers members) ++ "\x7d"

def writeItems : List Json → List String
  | [] => []
  | j :: rest => write j :: writeItems rest

def writeMembers : List (String × Json) → List String
  | [] => []
  | (key, j) :: rest => (writeString key ++ ":" ++ write j) :: writeMembers rest

end

end Measures.Json
