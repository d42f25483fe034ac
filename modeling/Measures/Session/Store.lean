import Measures.Action
import Measures.Dictionary
import Measures.Quantity.Basic

/-!
# The store of a session

Every variable holds a quantity of its own: two variables never share one.
-/

namespace Measures

structure Session where
  bindings : List (String × Quantity)
  /-- How many overwritings there were. -/
  marks : Nat

namespace Session

def empty : Session := ⟨[], 0⟩

def get? (s : Session) (name : String) : Option Quantity := s.bindings.lookup name

def put (s : Session) (name : String) (q : Quantity) : Session :=
  { s with bindings := Dictionary.set name q s.bindings }

/-- Changes the quantity of a variable, if there is one. -/
def update (s : Session) (name : String) (change : Quantity → Quantity) : Session :=
  match s.get? name with
  | some q => s.put name (change q)
  | none => s

def get (s : Session) (name : String) : Except Fault Quantity :=
  match s.get? name with
  | some q => .ok q
  | none => .error (.unknownVariable name)

@[simp] theorem get?_empty (name : String) : empty.get? name = none := rfl

theorem get?_put (s : Session) (name n : String) (q : Quantity) :
    (s.put name q).get? n = if n = name then some q else s.get? n :=
  Dictionary.lookup_set name n q s.bindings

@[simp] theorem get?_put_self (s : Session) (name : String) (q : Quantity) :
    (s.put name q).get? name = some q := by
  simp [get?_put]

@[simp] theorem put_put (s : Session) (name : String) (q r : Quantity) :
    (s.put name q).put name r = s.put name r := by
  simp [put]

theorem update_of_get? {s : Session} {name : String} {q : Quantity} (h : s.get? name = some q)
    (change : Quantity → Quantity) : s.update name change = s.put name (change q) := by
  simp [update, h]

theorem get_eq_ok_iff {s : Session} {name : String} {q : Quantity} :
    s.get name = .ok q ↔ s.get? name = some q := by
  unfold get
  cases s.get? name <;> simp

/-! ## Arguments -/

end Session

/-- An argument of a step: the quantity of a variable, a datum, or a list with a variable somewhere
in it. -/
inductive Argument where
  | named (name : String)
  | datum (d : Datum)
  | list (items : List Argument)
  deriving Inhabited

namespace Session

mutual

def operand (s : Session) : Argument → Except Fault Operand
  | .named name => (s.get name).map .quantity
  | .datum d => .ok (.datum d)
  | .list items => (s.operands items).map .list

def operands (s : Session) : List Argument → Except Fault (List Operand)
  | [] => .ok []
  | a :: rest => do
    let o ← s.operand a
    return o :: (← s.operands rest)

end

def read (name : String) : Action Session Quantity := do (← getThe Session).get name

def readOperand (a : Argument) : Action Session Operand := do (← getThe Session).operand a

def write (name : String) (change : Quantity → Quantity) : Action Session Unit :=
  modify fun s => s.update name change

/-- Puts a quantity of its own into a variable. -/
def assign (name : String) (q : Quantity) : Action Session Unit := modify fun s => s.put name q

@[simp] theorem perform_read (name : String) (s : Session) :
    (read name).perform s = (s.get name, s) := rfl

@[simp] theorem perform_readOperand (a : Argument) (s : Session) :
    (readOperand a).perform s = (s.operand a, s) := rfl

@[simp] theorem perform_write (name : String) (change : Quantity → Quantity) (s : Session) :
    (write name change).perform s = (.ok (), s.update name change) := rfl

@[simp] theorem perform_assign (name : String) (q : Quantity) (s : Session) :
    (assign name q).perform s = (.ok (), s.put name q) := rfl

end Session

end Measures
