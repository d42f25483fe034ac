import Measures.Action
import Measures.Datum.Number
import Measures.Dictionary
import Measures.Property.Record

/-!
# Registries

A registry holds definitions twice, under their indices and under their names. The two dictionaries
are written one after the other; that they always agree is proved of what `add` does. A key can be
any datum: a truth value or a float finds the index that it equals, a member finds the name that is
its text.
-/

namespace Measures

structure Registry where
  indexed : List (Int × Definition)
  named : List (String × Definition)

namespace Registry

def empty : Registry := ⟨[], []⟩

instance : Inhabited Registry := ⟨empty⟩

/-! ## Looking up -/

def atIndex? (r : Registry) (i : Int) : Option Definition := r.indexed.lookup i

def named? (r : Registry) (name : String) : Option Definition := r.named.lookup name

/-- The integer that a key equals. -/
def keyIndex? (key : Datum) : Option Int :=
  match key with
  | .float x => x.toInt?
  | key => key.integer?

def get (r : Registry) (key : Datum) : Except Fault Definition := do
  let key ← key.asKey
  match (keyIndex? key).bind r.atIndex? with
  | some d => return d
  | none => .error (.unknownIndex key.display)

def byName (r : Registry) (key : Datum) : Except Fault Definition := do
  let key ← key.asKey
  match key.text?.bind r.named? with
  | some d => return d
  | none => .error (.unknownName key.display)

def propertyIndex (r : Registry) (name : Datum) : Except Fault Nat := (r.byName name).map (·.index)

def legalCategories (r : Registry) (key : Datum) : Except Fault CategorySet :=
  (r.get key).map (·.categories)

/-- Whether a definition allows a category, given as itself or as its text. -/
def allows (d : Definition) (category : Datum) : Except Fault Bool :=
  (category.asKey).map fun c => (c.text?.bind Category.ofText?).any d.categories.contains

def isLegal (r : Registry) (key category : Datum) : Except Fault Bool := do
  let d ← r.get key
  allows d category

/-- Whether there is a definition for a key: a text is a name, anything else an index. -/
def contains (r : Registry) (key : Datum) : Except Fault Bool :=
  match key.text? with
  | some name => .ok (r.named? name).isSome
  | none => (key.asKey).map fun key => ((keyIndex? key).bind r.atIndex?).isSome

def size (r : Registry) : Nat := r.indexed.length

/-! ## In order -/

/-- Puts a definition before the first one with a greater index. -/
def insertByIndex (d : Definition) : List Definition → List Definition
  | [] => [d]
  | e :: rest => if d.index < e.index then d :: e :: rest else e :: insertByIndex d rest

def toList (r : Registry) : List Definition := (r.indexed.map (·.2)).foldr insertByIndex []

/-! ## Adding -/

def checkIndex (r : Registry) (d : Definition) : Except Fault Unit :=
  match r.atIndex? d.index with
  | some other => .error (.duplicateIndex d.index other.name d.name)
  | none => .ok ()

def checkName (r : Registry) (d : Definition) : Except Fault Unit :=
  if (r.named? d.name).isSome then .error (.duplicateName d.name) else .ok ()

def setIndexed (r : Registry) (d : Definition) : Registry :=
  { r with indexed := Dictionary.set (d.index : Int) d r.indexed }

def setNamed (r : Registry) (d : Definition) : Registry :=
  { r with named := Dictionary.set d.name d r.named }

/-- Adds a definition. Its index must be new, and then its name. -/
def add (d : Definition) : Action Registry Unit := do
  checkIndex (← getThe Registry) d
  checkName (← getThe Registry) d
  modify (·.setIndexed d)
  modify (·.setNamed d)

def built (m : Action Registry Unit) : Except Fault Registry := m.final empty

def ofDefinitions (ds : List Definition) : Except Fault Registry := built (ds.forM add)

/-- Builds each definition and adds it before the next one is built. -/
def ofFieldLists (lists : List (List (String × Json))) : Except Fault Registry :=
  built (lists.forM fun fields => do add (← Definition.ofFields fields))

end Registry

/-! ## Adding on the record -/

structure Journal where
  registry : Registry
  records : List Record

/-- Adds a definition and then makes a record of it. -/
def Journal.register (d : Definition) : Action Journal Unit := do
  Action.within Journal.registry (fun j r => { j with registry := r }) (Registry.add d)
  modify fun j => { j with records := j.records ++ [.registered d] }

end Measures
