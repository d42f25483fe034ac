import Measures.Fault
import Measures.Datum.Number

/-!
# Base units as stored

The field for a base unit holds a base unit, or any datum if it was overwritten from outside. Two
things are asked of a slot: whether it holds one base unit itself, and which base unit a table
finds under it. A text finds the base unit with that text, but is not it.
-/

namespace Measures

/-- The name of a base unit, or a text that says that a datum is none. -/
def Writing.unitName {m : Type → Type} [Monad m] (write : Writing m) : Datum → m String
  | .member (.base u) => pure u.displayName
  | d => return s!"Unrecognized baseunit type: {← write d}"

inductive UnitSlot where
  | unit (u : BaseUnit)
  /-- A datum that is no base unit; `mark` tells one overwriting from another. -/
  | foreign (d : Datum) (mark : Nat)
  deriving Inhabited

namespace UnitSlot

def ofDatum (d : Datum) (mark : Nat) : UnitSlot :=
  match d with
  | .member (.base u) => .unit u
  | d => .foreign d mark

def datum : UnitSlot → Datum
  | .unit u => .member (.base u)
  | .foreign d _ => d

/-- Whether the slot holds the base unit itself. -/
def holds (s : UnitSlot) (u : BaseUnit) : Bool :=
  match s with
  | .unit v => v == u
  | .foreign .. => false

/-- The base unit that a table has under a datum; a list is no key of a table. -/
def find? (d : Datum) : Except Fault (Option BaseUnit) :=
  (d.asKey).map fun key => key.text?.bind BaseUnit.ofText?

def resolve : UnitSlot → Except Fault (Option BaseUnit)
  | .unit u => .ok (some u)
  | .foreign d _ => find? d

/-- Whether the content of the slot is in a group of base units. -/
def isIn (s : UnitSlot) (group : BaseUnit → Bool) : Except Fault Bool :=
  s.resolve.map (·.any group)

/-! ## Identity -/

/-- Data that are one and the same wherever they come from. -/
def isShared : Datum → Bool
  | .none | .bool _ | .member _ => true
  | .int i => -5 ≤ i && i ≤ 256
  | .text s => match s.toList with
    | [] => true
    | [c] => c.toNat < 256
    | _ => false
  | .float _ | .list _ => false

/-- Whether two data that are shared are the same one; texts are told from members. -/
def sameShared : Datum → Datum → Bool
  | .none, .none => true
  | .bool a, .bool b => a == b
  | .member m, .member n => m == n
  | .int i, .int j => i == j
  | .text s, .text t => s == t
  | _, _ => false

/-- Whether two slots hold the very same thing. -/
def identical : UnitSlot → UnitSlot → Bool
  | .unit u, .unit v => u == v
  | .foreign d m, .foreign e n => m == n || (isShared d && sameShared d e)
  | _, _ => false

/-! ## Names -/

def nameOf (d : Datum) : String := Id.run (Writing.unitName .plain d)

def name (s : UnitSlot) : String := nameOf s.datum

@[simp] theorem name_unit (u : BaseUnit) : (unit u).name = u.displayName := rfl

@[simp] theorem isIn_unit (u : BaseUnit) (g : BaseUnit → Bool) : (unit u).isIn g = .ok (g u) := rfl

end UnitSlot

theorem Writing.unitName_of_plain {m : Type → Type} [Monad m] [LawfulMonad m] {write : Writing m}
    {d : Datum} (h : write d = pure d.literal) : write.unitName d = pure (UnitSlot.nameOf d) := by
  unfold UnitSlot.nameOf unitName
  split
  · rfl
  · rw [h, pure_bind]
    rfl

/-! ## Arguments that should be base units -/

/-- The base unit that a constructor takes a datum for: a base unit or its text. -/
def BaseUnit.ofDatum? (d : Datum) : Option BaseUnit := d.text?.bind ofText?

end Measures
