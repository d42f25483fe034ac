import Measures.Json.Basic
import Measures.Property.Category

/-!
# Items of registry documents

How a definition and a list of definitions stand in a document.
-/

namespace Measures.Property

/-- The item that writes a definition; a description is there only if there is one. -/
def itemJson (index : Nat) (name : String) (categories : List Category)
    (description : Option String) : Json :=
  .obj ([("index", .int index), ("name", .str name),
    ("categories", .arr (categories.map fun c => .str c.text))]
    ++ (description.map fun text => ("description", .str text)).toList)

def schemaVersion : String := "1"

def documentOf (items : List Json) : Json :=
  .obj [("schema_version", .str schemaVersion), ("properties", .arr items)]

end Measures.Property
