import Measures.Property.Registry
import Measures.Quantity.Basic

/-!
# Validation

What a quantity is decides on the category it counts as, and the power that this category needs;
the registry then says whether its property takes that category. The registry is asked last.
-/

namespace Measures

/-- What a base unit has to satisfy to be a value of a property. -/
structure Demand where
  category : Category
  power : Int
  /-- The name of the category in messages about the power. -/
  label : String
  deriving DecidableEq, Repr

/-- The demand on quantities of a base unit; an em has to become a length first. -/
def BaseUnit.demand? : BaseUnit → Option Demand
  | .number => some ⟨.number, 0, "Numeric"⟩
  | .percentage => some ⟨.percentage, 0, "Percentage"⟩
  | .ems => none
  | .millipoints => some ⟨.length, 1, "Length"⟩
  | .hertz => some ⟨.frequency, 1, "Frequency"⟩
  | .millisecs => some ⟨.time, 1, "Time"⟩
  | .degrees => some ⟨.angle, 1, "Angle"⟩

namespace Quantity

def category (q : Quantity) : Except Fault Category := do
  if q.unit.holds .ems then .error .unresolvedEms
  match (← q.unit.resolve).bind (·.demand?) with
  | none => .error (.unrecognizedUnit q.unit.datum.literal)
  | some demand =>
    if q.hasPower demand.power then return demand.category
    else .error (.unitPower demand.label q.power.datum)

def checkCategory (q : Quantity) (c : Category) (r : Registry) : Except Fault Unit := do
  let d ← r.get q.property
  if d.categories.contains c then return ()
  else .error (.illegalCategory c d.name)

/-- Holds a quantity against a registry, which is obtained only if the quantity has a category. -/
def validate (q : Quantity) (registry : Except Fault Registry) : Except Fault Unit := do
  let c ← q.category
  checkCategory q c (← registry)

end Quantity

end Measures
