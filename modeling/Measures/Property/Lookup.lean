import Measures.Property.Registry

/-!
# Questions to a registry

Everything that a registry answers without being changed.
-/

namespace Measures

inductive Lookup where
  | get (key : Datum)
  | byName (key : Datum)
  | propertyIndex (key : Datum)
  | legalCategories (key : Datum)
  | isLegal (key category : Datum)
  | contains (key : Datum)
  | size
  | list

inductive Finding where
  | definition (d : Definition)
  | number (n : Nat)
  | categories (s : CategorySet)
  | truth (b : Bool)
  | definitions (ds : List Definition)

def Lookup.answer (r : Registry) : Lookup → Except Fault Finding
  | get key => (r.get key).map .definition
  | byName key => (r.byName key).map .definition
  | propertyIndex key => (r.propertyIndex key).map .number
  | legalCategories key => (r.legalCategories key).map .categories
  | isLegal key category => (r.isLegal key category).map .truth
  | contains key => (r.contains key).map .truth
  | size => .ok (.number r.size)
  | list => .ok (.definitions r.toList)

end Measures
