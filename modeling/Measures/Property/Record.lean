import Measures.Datum.Text
import Measures.Property.Definition

/-!
# Records

What is told about the work on registries.
-/

namespace Measures

inductive Record where
  | loaded (count : Nat) (source : String)
  | registered (d : Definition)

namespace Record

def text : Record → String
  | loaded count source => s!"DEBUG Loaded {count} property definitions from {source}"
  | registered d =>
    let categories := (Datum.list (d.categories.toList.map fun c => .text c.text)).literal
    s!"INFO Registered property '{d.name}' (index={d.index}, categories={categories})"

end Record

end Measures
