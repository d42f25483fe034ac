import Measures.Quantity.Power
import Measures.Unit.Slot

/-!
# Quantities

A quantity is a value times a power of a base unit, made for a property. It also keeps the base
unit and the literal unit it was made with.
-/

namespace Measures

structure Quantity where
  /-- The index of the property, taken as given. -/
  property : Datum
  value : Binary64
  unit : UnitSlot
  power : Power
  /-- The base unit at the time of making. -/
  madeUnit : UnitSlot
  /-- The literal unit at the time of making, taken as given. -/
  literal : Datum
  deriving Inhabited

namespace Quantity

def hasPower (q : Quantity) (p : Int) : Bool := q.power.isInt p

end Quantity

/-! ## Texts in any writing -/

namespace Writing

section

variable {m : Type → Type} [Monad m] (write : Writing m)

/-- The text of a unit given as a member of `table` or as its text. -/
def tableName (kind : String) (table : List PhysicalUnit) (d : Datum) : m String :=
  match d.text?.bind fun s => table.find? (·.text == s) with
  | some u => pure u.text
  | none => return s!"Unrecognized {kind} unit: {← write d}"

def literalName (u : BaseUnit) (literal : Datum) : m String :=
  match u with
  | .number => pure ""
  | .percentage => pure percentSign
  | .ems => pure emSign
  | .millipoints => tableName write "length" (LengthUnit.all.map .length) literal
  | .hertz => tableName write "frequency" (FrequencyUnit.all.map .frequency) literal
  | .millisecs => tableName write "time" (TimeUnit.all.map .time) literal
  | .degrees => tableName write "angle" (AngleUnit.all.map .angle) literal

def powerMark (q : Quantity) : m String :=
  if q.hasPower 0 then pure "" else return "^" ++ (← write.display q.power.datum)

/-- The value, the name of the base unit, and the power unless it is zero. -/
def text (q : Quantity) : m String := do
  let power ← write.powerMark q
  let name ← write.unitName q.unit.datum
  return q.value.text ++ name ++ power

end

variable (write : Writing (Except Fault))

/-- The name of the literal unit that the quantity was made with. A text in place of a physical
base unit counts as that base unit. The look-up comes before anything is written. -/
def literalUnitName (q : Quantity) : Except Fault String :=
  match q.madeUnit with
  | .unit u => write.literalName u q.literal
  | .foreign d _ => UnitSlot.find? d >>= fun u =>
    match u.filter (·.isPhysical) with
    | some u => write.literalName u q.literal
    | none => return s!"Unrecognized original baseunit type: {← write d}"

def fullText (q : Quantity) : Except Fault String := do
  let property ← write q.property
  let name ← write.unitName q.unit.datum
  let power ← write.display q.power.datum
  let literal ← write.literalUnitName q
  return s!"Numeric(property_id={property}, value={q.value.text}, "
    ++ s!"base_unit={name}, power={power}, "
    ++ s!"original_unit={Text.quoted literal})"

end Writing

/-! ## Plain texts -/

namespace Quantity

def tableName (kind : String) (table : List PhysicalUnit) (d : Datum) : String :=
  Id.run (Writing.tableName .plain kind table d)

def lengthUnitName (d : Datum) : String := tableName "length" (LengthUnit.all.map .length) d

def frequencyUnitName (d : Datum) : String :=
  tableName "frequency" (FrequencyUnit.all.map .frequency) d

def timeUnitName (d : Datum) : String := tableName "time" (TimeUnit.all.map .time) d

def angleUnitName (d : Datum) : String := tableName "angle" (AngleUnit.all.map .angle) d

def literalName (u : BaseUnit) (literal : Datum) : String :=
  Id.run (Writing.literalName .plain u literal)

def unitName (q : Quantity) : String := q.unit.name

def madeUnitName (q : Quantity) : String := q.madeUnit.name

def literalUnitName (q : Quantity) : Except Fault String := Writing.literalUnitName .plain q

def text (q : Quantity) : String := Id.run (Writing.text .plain q)

def fullText (q : Quantity) : Except Fault String := Writing.fullText .plain q

theorem text_eq (q : Quantity) :
    q.text = q.value.text ++ q.unitName ++
      (if q.hasPower 0 then "" else "^" ++ q.power.datum.display) := by
  unfold text Writing.text Writing.powerMark
  split <;> rfl

end Quantity

/-! ## Data written as they are -/

namespace Writing

variable {q : Quantity} {d : Datum}

section

variable {m : Type → Type} [Monad m] [LawfulMonad m] {write : Writing m}

theorem tableName_of_plain (h : write d = pure d.literal) (kind : String)
    (table : List PhysicalUnit) :
    write.tableName kind table d = pure (Quantity.tableName kind table d) := by
  unfold Quantity.tableName tableName
  split
  · rfl
  · rw [h, pure_bind]
    rfl

theorem literalName_of_plain (h : write d = pure d.literal) (u : BaseUnit) :
    write.literalName u d = pure (Quantity.literalName u d) := by
  cases u with
  | number | percentage | ems => rfl
  | millipoints | hertz | millisecs | degrees => exact tableName_of_plain h _ _

theorem text_of_plain (hunit : write q.unit.datum = pure q.unit.datum.literal)
    (hpower : write q.power.datum = pure q.power.datum.literal) : write.text q = pure q.text := by
  rw [Quantity.text_eq]
  unfold text powerMark
  rw [unitName_of_plain hunit, display_of_plain hpower]
  split <;> simp only [pure_bind] <;> rfl

end

variable {write : Writing (Except Fault)}

theorem literalUnitName_of_plain (hmade : write q.madeUnit.datum = .ok q.madeUnit.datum.literal)
    (hliteral : write q.literal = .ok q.literal.literal) :
    write.literalUnitName q = q.literalUnitName := by
  have hname (u : BaseUnit) : write.literalName u q.literal = plain.literalName u q.literal :=
    (literalName_of_plain hliteral u).trans (literalName_of_plain rfl u).symm
  unfold Quantity.literalUnitName literalUnitName
  split
  · exact hname _
  · rename_i d mark heq
    rw [heq] at hmade
    have hd : write d = plain d := hmade
    simp only [hname, hd]

theorem fullText_of_plain (hproperty : write q.property = .ok q.property.literal)
    (hunit : write q.unit.datum = .ok q.unit.datum.literal)
    (hpower : write q.power.datum = .ok q.power.datum.literal)
    (hmade : write q.madeUnit.datum = .ok q.madeUnit.datum.literal)
    (hliteral : write q.literal = .ok q.literal.literal) : write.fullText q = q.fullText := by
  have hwritten : write q.property = plain q.property := hproperty
  have hname : write.unitName q.unit.datum = plain.unitName q.unit.datum :=
    (unitName_of_plain hunit).trans (unitName_of_plain rfl).symm
  have hdisplay : write.display q.power.datum = plain.display q.power.datum :=
    (display_of_plain hpower).trans (display_of_plain rfl).symm
  have hliteralName : write.literalUnitName q = plain.literalUnitName q :=
    literalUnitName_of_plain hmade hliteral
  unfold Quantity.fullText fullText
  rw [hwritten, hname, hdisplay, hliteralName]

end Writing

namespace Quantity

variable {q : Quantity}

theorem literalUnitName_unit {u : BaseUnit} (h : q.madeUnit = .unit u) :
    q.literalUnitName = .ok (literalName u q.literal) := by
  unfold literalUnitName Writing.literalUnitName
  rw [h]
  exact Writing.literalName_of_plain rfl u

theorem fullText_eq (q : Quantity) : q.fullText = q.literalUnitName.map fun literal =>
    s!"Numeric(property_id={q.property.literal}, value={q.value.text}, "
      ++ s!"base_unit={q.unitName}, power={q.power.datum.display}, "
      ++ s!"original_unit={Text.quoted literal})" := by
  have hname : Writing.unitName .plain q.unit.datum = (.ok q.unitName : Except Fault String) :=
    Writing.unitName_of_plain rfl
  have hpower : Writing.display .plain q.power.datum
      = (.ok q.power.datum.display : Except Fault String) := Writing.display_of_plain rfl
  unfold fullText Writing.fullText
  rw [hname, hpower]
  unfold literalUnitName
  cases Writing.literalUnitName .plain q <;> rfl

end Quantity

/-! ## Operands -/

/-- What an operation is given: a quantity, any datum, or a list with a quantity somewhere in it. -/
inductive Operand where
  | quantity (q : Quantity)
  | datum (d : Datum)
  | list (items : List Operand)
  deriving Inhabited

namespace Operand

def typeName : Operand → String
  | quantity _ => "Numeric"
  | datum d => d.typeName
  | list _ => (Datum.list []).typeName

mutual

def literal : Operand → Except Fault String
  | quantity q => q.fullText
  | datum d => .ok d.literal
  | list items => (literals items).map fun shown => "[" ++ ", ".intercalate shown ++ "]"

def literals : List Operand → Except Fault (List String)
  | [] => .ok []
  | o :: rest => do
    let shown ← literal o
    return shown :: (← literals rest)

end

/-- The value for a constructor; a quantity gives its own. -/
def toFloat : Operand → Except Fault Binary64
  | quantity q => .ok q.value
  | datum d => d.toFloat
  | list items => .error (.notConvertible (typeName (.list items)))

def scalar : Operand → Except Fault Binary64
  | datum d => d.realOr .unsupportedOperand
  | o => .error (.unsupportedOperand o.typeName)

/-- The datum that an operand is, to be kept in a field as it is. That a quantity, or a list with
one in it, is refused is a limit of this model: the fields hold data only. -/
def kept : Operand → Except Fault Datum
  | datum d => .ok d
  | _ => .error .quantityKept

/-- Fails with a cause that shows the operand. -/
def refuse {α : Type} (o : Operand) (cause : String → Fault) : Except Fault α :=
  o.literal.bind fun shown => .error (cause shown)

end Operand

end Measures
