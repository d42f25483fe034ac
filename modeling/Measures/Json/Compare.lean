import Measures.Json.Basic

/-!
# Comparing JSON values

Equality keeps truth values apart from numbers and does not look at the order of members. Whether
the items of an array are distinct is decided between neighbours in sorted order when all items can
be ordered, and between all pairs otherwise.
-/

namespace Measures.Json

/-! ## Equality -/

inductive Num where
  | int (i : Int)
  | float (x : Binary64)

namespace Num

def equal : Num → Num → Bool
  | .int i, .int j => i == j
  | .int i, .float x | .float x, .int i => x.equalInt i
  | .float x, .float y => x.equal y

def less : Num → Num → Bool
  | .int i, .int j => i < j
  | .int i, .float x => x.greaterInt i
  | .float x, .int i => x.lessInt i
  | .float x, .float y => x.less y

end Num

/-- The number that a value is; truth values are numbers only if `bools` says so. -/
def num? (bools : Bool) : Json → Option Num
  | .int i => some (.int i)
  | .float x => some (.float x)
  | .bool b => if bools then some (.int (if b then 1 else 0)) else none
  | _ => none

mutual

/-- Equality of values; `bools` makes a truth value equal to the number 0 or 1. A NaN equals
itself. -/
def equalWith (bools : Bool) : Json → Json → Bool
  | .null, .null => true
  | .bool a, .bool b => a == b
  | .float .nan, .float .nan => true
  | .str s, .str t => s == t
  | .arr xs, .arr ys => equalItems bools xs ys
  | .obj xs, .obj ys => xs.length == ys.length && equalMembers bools xs ys
  | j, k => match num? bools j, num? bools k with
    | some m, some n => m.equal n
    | _, _ => false

def equalItems (bools : Bool) : List Json → List Json → Bool
  | [], [] => true
  | x :: xs, y :: ys => equalWith bools x y && equalItems bools xs ys
  | _, _ => false

def equalMembers (bools : Bool) : List (String × Json) → List (String × Json) → Bool
  | [], _ => true
  | (key, x) :: rest, others =>
    (match others.lookup key with
      | some y => equalWith bools x y
      | none => false) && equalMembers bools rest others

end

def equal (j k : Json) : Bool := equalWith false j k

/-! ## Order -/

mutual

/-- The order inside arrays, where truth values are numbers; `none` if values have no order. -/
def lessInside? : Json → Json → Option Bool
  | .str s, .str t => some (s < t)
  | .arr xs, .arr ys => lessItems? xs ys
  | j, k => match num? true j, num? true k with
    | some m, some n => some (m.less n)
    | _, _ => none

/-- The first items that differ decide; then the shorter array is less. -/
def lessItems? : List Json → List Json → Option Bool
  | _, [] => some false
  | [], _ :: _ => some true
  | x :: xs, y :: ys => if equalWith true x y then lessItems? xs ys else lessInside? x y

end

/-- The order of values; truth values have none. -/
def less? (j k : Json) : Option Bool :=
  match j, k with
  | .bool _, _ | _, .bool _ => none
  | j, k => lessInside? j k

/-! ## Distinct items -/

def pairwiseDistinct : List Json → Bool
  | [] => true
  | x :: rest => rest.all (fun y => !equal x y) && pairwiseDistinct rest

def neighboursDistinct : List Json → Bool
  | x :: y :: rest => !equal x y && neighboursDistinct (y :: rest)
  | _ => true

def allOrdered : List Json → Bool
  | [] => true
  | x :: rest => rest.all (fun y => (less? x y).isSome && (less? y x).isSome) && allOrdered rest

/-- Puts an item behind all that are not greater. -/
def insertSorted (x : Json) : List Json → List Json
  | [] => [x]
  | y :: rest => if less? x y = some true then x :: y :: rest else y :: insertSorted x rest

/-- The items in ascending order; equal ones keep their order. -/
def sorted (items : List Json) : List Json := items.foldl (fun done x => insertSorted x done) []

def distinct (items : List Json) : Bool :=
  if allOrdered items then neighboursDistinct (sorted items) else pairwiseDistinct items

end Measures.Json
