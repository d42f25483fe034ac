import Measures.Property.Contract
import Measures.Property.Registry
import Measures.Property.Table

/-!
# Registries from documents

A document is held against a schema first. Then all its items become definitions, and then the
definitions are added in turn. The first failure counts.
-/

namespace Measures

namespace Property

/-! ## Taking a document apart

A schema need not promise the form that is asked for here, so each part may fail. -/

/-- The value under a key, which only an object has. -/
def valueAt (key : String) (j : Json) : Except Fault Json :=
  match j with
  | .obj members =>
    match members.lookup key with
    | some value => .ok value
    | none => .error (.missingKey key)
  | j => .error (.noKeys j.typeName)

/-- What a value gives one after the other: items, keys or characters. -/
def elements (j : Json) : Except Fault (List Json) :=
  match j with
  | .arr items => .ok items
  | .obj members => .ok (members.map fun (key, _) => .str key)
  | .str s => .ok (s.toList.map fun c => .str (String.singleton c))
  | j => .error (.notIterable j.typeName)

def fieldsOf (j : Json) : Except Fault (List (String × Json)) :=
  match j with
  | .obj members => .ok members
  | j => .error (.notMapping j.typeName)

/-- The definition that an item writes. -/
def ofItem (item : Json) : Except Fault Definition := do Definition.ofFields (← fieldsOf item)

end Property

namespace Registry

def ofItems (items : List Json) : Except Fault Registry := do
  ofDefinitions (← items.mapM Property.ofItem)

def ofDocumentUnder (schema : Schema) (doc : Json) : Except Fault Registry :=
  match schema.firstViolation? doc with
  | some v => .error (.contract v)
  | none => do ofItems (← Property.elements (← Property.valueAt "properties" doc))

def ofDocument (doc : Json) : Except Fault Registry :=
  ofDocumentUnder Property.registrySchema doc

def packaged : Except Fault Registry := ofDocument Property.packagedDocument

def toDocument (r : Registry) : Json := Property.documentOf (r.toList.map (·.toJson))

end Registry

end Measures
