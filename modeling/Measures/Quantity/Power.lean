import Measures.Datum.Number
import Measures.Datum.Text

/-!
# Powers as stored

A power is an integer, or any datum if it was overwritten from outside. Powers are told apart by
their data, but a NaN in a list equals only itself: each item of a list therefore keeps its origin,
and copies and joined lists keep the origins of their items.
-/

namespace Measures

/-- Where an item of a list comes from: the overwriting that brought it, and its place there. -/
structure Origin where
  mark : Nat
  place : Nat
  deriving DecidableEq, Repr

inductive Power where
  /-- A datum that is no list. -/
  | single (d : Datum)
  | items (items : List (Origin × Datum))
  deriving Inhabited

namespace Power

def ofInt (p : Int) : Power := .single (.int p)

/-- The items of an overwriting with their origins, from a place on. -/
def withOrigins (mark : Nat) : Nat → List Datum → List (Origin × Datum)
  | _, [] => []
  | place, d :: rest => (⟨mark, place⟩, d) :: withOrigins mark (place + 1) rest

/-- The power after an overwriting; `mark` tells one overwriting from another. -/
def ofDatum (d : Datum) (mark : Nat) : Power :=
  match d with
  | .list ds => .items (withOrigins mark 0 ds)
  | d => .single d

def datum : Power → Datum
  | .single d => d
  | .items xs => .list (xs.map (·.2))

/-! ## Equality -/

/-- Items are equal if they are one and the same, or equal wherever they come from. -/
def sameItem (x y : Origin × Datum) : Bool := x.1 == y.1 || x.2.same y.2

def sameItems : List (Origin × Datum) → List (Origin × Datum) → Bool
  | [], [] => true
  | x :: xs, y :: ys => sameItem x y && sameItems xs ys
  | _, _ => false

def same : Power → Power → Bool
  | .single d, .single e => d.same e
  | .items xs, .items ys => sameItems xs ys
  | _, _ => false

/-- Whether a power is an integer's equal. -/
def isInt (p : Power) (i : Int) : Bool := p.same (ofInt i)

/-! ## Sum and difference -/

/-- The sum of two powers: numbers add up, texts and lists are joined. -/
def plus : Power → Power → Except Fault Power
  | .items xs, .items ys => .ok (.items (xs ++ ys))
  | p, q => (p.datum.plus q.datum).map .single

def minus (p q : Power) : Except Fault Power := (p.datum.minus q.datum).map .single

/-! ## Integers as powers -/

@[simp] theorem datum_ofInt (i : Int) : (ofInt i).datum = .int i := rfl

@[simp] theorem same_ofInt (i j : Int) : (ofInt i).same (ofInt j) = (i == j) := by
  simp [ofInt, same]

@[simp] theorem isInt_ofInt (i j : Int) : (ofInt i).isInt j = (i == j) := same_ofInt i j

@[simp] theorem plus_ofInt (i j : Int) : (ofInt i).plus (ofInt j) = .ok (ofInt (i + j)) := rfl

@[simp] theorem minus_ofInt (i j : Int) : (ofInt i).minus (ofInt j) = .ok (ofInt (i - j)) := rfl

end Power

end Measures
