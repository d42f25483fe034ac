import Measures.Binary64.Arithmetic
import Measures.Dictionary

/-!
# JSON values

Integers of any size are kept apart from floats. The members of an object are in the order in
which their keys came first, and each key is there once.
-/

namespace Measures

inductive Json where
  | null
  | bool (b : Bool)
  | int (i : Int)
  | float (x : Binary64)
  | str (s : String)
  | arr (items : List Json)
  | obj (members : List (String × Json))
  deriving Inhabited

namespace Json

/-- The name of the type of a value, as messages show it. -/
def typeName : Json → String
  | null => "NoneType"
  | bool _ => "bool"
  | int _ => "int"
  | float _ => "float"
  | str _ => "str"
  | arr _ => "list"
  | obj _ => "dict"

/-! ## Members -/

/-- The members that pairs set, one after the other. -/
def ofPairs (pairs : List (String × Json)) : List (String × Json) :=
  pairs.foldl (fun members (key, value) => Dictionary.set key value members) []

/-! ## Size -/

mutual

/-- How many values a value holds, itself among them. -/
def size : Json → Nat
  | .arr items => sizeItems items + 1
  | .obj members => sizeMembers members + 1
  | _ => 1

def sizeItems : List Json → Nat
  | [] => 0
  | j :: rest => size j + sizeItems rest

def sizeMembers : List (String × Json) → Nat
  | [] => 0
  | (_, j) :: rest => size j + sizeMembers rest

end

/-! ## Look-up -/

def get? (j : Json) (key : String) : Option Json :=
  match j with
  | .obj members => members.lookup key
  | _ => none

end Json

end Measures
