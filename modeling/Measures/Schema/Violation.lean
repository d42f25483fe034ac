/-!
# Violations of a schema
-/

namespace Measures

/-- One step from a value into a part of it. -/
inductive PathStep where
  | key (name : String)
  | index (i : Nat)
  deriving DecidableEq, Repr

/-- A keyword that a part of a document does not satisfy; the schema `false` has no keyword. -/
structure Violation where
  path : List PathStep
  keyword : Option String
  deriving DecidableEq, Repr

namespace Violation

def here (keyword : String) : Violation := ⟨[], some keyword⟩

/-- A violation of a part, seen from the whole. -/
def under (step : PathStep) (v : Violation) : Violation := { v with path := step :: v.path }

end Violation

end Measures
