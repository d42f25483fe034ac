import Measures.Datum.Text
import Measures.Property.Issue
import Measures.Schema.Violation

/-!
# Causes of failure

Each constructor is one cause with the data that its message shows. Powers are data, since an
overwritten power can be of any kind; a base unit is shown by its name, any other datum by its
literal text.
-/

namespace Measures

/-- The operations that need compatible operands, as messages name them. -/
inductive Verb where
  | add
  | subtract
  | mod
  | multiply
  | divide
  deriving DecidableEq, Repr

def Verb.text : Verb → String
  | .add => "add"
  | .subtract => "subtract"
  | .mod => "mod"
  | .multiply => "multiply"
  | .divide => "divide"

/-- The kinds of failure that callers tell apart. -/
inductive FaultKind where
  | invalidUnit
  | invalidDimension
  | incompatibleOperands
  | incompatibleUnits
  | dimension
  | propertyValidation
  | unrecognizedUnit
  | unknownProperty
  | wrongType
  | badValue
  | overflow
  | missingAttribute
  | missingKey
  | missingFile
  | isDirectory
  | notDirectory
  | missingDirectory
  | malformedJson
  | malformedUtf8
  | nestedTooDeep
  | contract
  | definition
  | malformedStep
  deriving DecidableEq, Repr

inductive Fault where
  -- making a quantity
  | invalidUnit (shown : String)
  | powerNotInteger (shown : String)
  | numericPower (power : Int)
  | propertyNotIndex (shown : String)
  -- combining quantities
  | differentPowers (verb : Verb) (left right : Datum)
  | differentUnits (verb : Verb) (left right : String)
  | relativeRemainder (left right : String)
  | scalarRemainder (unit : String) (reason : MismatchReason)
  | differentFactors (verb : Verb) (left right : String)
  | relativeByUnit (verb : Verb) (left right : String)
  | unitByRelative (verb : Verb) (left right : String)
  | numericWithPower
  -- functions of quantities without a dimension
  | needsPowerZero (function : String) (power : Datum)
  | comparesPowerZero (function : String)
  -- validation
  | unresolvedEms
  | unitPower (label : String) (power : Datum)
  | illegalCategory (category : Category) (property : String)
  | unrecognizedUnit (shown : String)
  | unknownIndex (shown : String)
  | unknownName (shown : String)
  -- arguments of a wrong type
  | cannotCombine (verb : Verb) (type : String)
  | unsupportedOperand (type : String)
  | unsupportedOperands (operator left right : String)
  | cannotConcatenate (left right : String)
  | cannotRepeat
  | needsQuantity (function type : String)
  | notReal (type : String)
  | notConvertible (type : String)
  | unhashable (type : String)
  | noFactor (type : String)
  -- documents of a wrong form
  | missingKey (key : String)
  | noKeys (type : String)
  | notIterable (type : String)
  | notMapping (type : String)
  -- arguments of a wrong value
  | notPhysical (shown : String)
  | notNumberText (shown : String)
  | unsupportedWidth (shown : String)
  | negativeTolerance
  | remainderDomain
  | nanToInteger
  | infinityToInteger
  | integerTooLarge
  | integerTooLong
  | quotientTooLarge
  -- registries
  | duplicateIndex (index : Nat) (earlier later : String)
  | duplicateName (name : String)
  | definition (issues : List Issue)
  | contract (violation : Violation)
  -- files
  | noFile (path : String)
  | directoryFile (path : String)
  | fileInFile (path : String)
  | nulInPath
  | malformedUtf8
  | malformedJson
  | integerTextTooLong (digits : Nat)
  | nestedTooDeep (container : String)
  | noSchema (path : String)
  | noSchemaDirectory (path : String)
  | invalidSchema (name : String)
  -- sessions
  | unknownVariable (name : String)
  | quantityKept
  deriving Inhabited

namespace Fault

def kind : Fault → FaultKind
  | invalidUnit _ => .invalidUnit
  | powerNotInteger _ | numericPower _ | numericWithPower => .invalidDimension
  | differentPowers .. | differentUnits .. | relativeRemainder .. | scalarRemainder .. =>
    .incompatibleOperands
  | differentFactors .. | relativeByUnit .. | unitByRelative .. => .incompatibleUnits
  | needsPowerZero .. | comparesPowerZero _ => .dimension
  | unresolvedEms | unitPower .. | illegalCategory .. => .propertyValidation
  | unrecognizedUnit _ => .unrecognizedUnit
  | unknownIndex _ | unknownName _ => .unknownProperty
  | propertyNotIndex _ | cannotCombine .. | unsupportedOperand _ | unsupportedOperands ..
  | cannotConcatenate .. | cannotRepeat | needsQuantity .. | notReal _ | notConvertible _
  | unhashable _ | noKeys _ | notIterable _ | notMapping _ => .wrongType
  | noFactor _ => .missingAttribute
  | missingKey _ => .missingKey
  | notPhysical _ | notNumberText _ | unsupportedWidth _ | negativeTolerance | remainderDomain
  | nanToInteger | integerTooLong | duplicateIndex .. | duplicateName _ | nulInPath
  | integerTextTooLong _ | invalidSchema _ => .badValue
  | infinityToInteger | integerTooLarge | quotientTooLarge => .overflow
  | definition _ => .definition
  | contract _ => .contract
  | noFile _ | noSchema _ => .missingFile
  | directoryFile _ => .isDirectory
  | fileInFile _ => .notDirectory
  | noSchemaDirectory _ => .missingDirectory
  | malformedUtf8 => .malformedUtf8
  | malformedJson => .malformedJson
  | nestedTooDeep _ => .nestedTooDeep
  | unknownVariable _ | quantityKept => .malformedStep

/-- The reason for which operands of a sum, a difference or a remainder are incompatible. -/
def reason? : Fault → Option MismatchReason
  | differentPowers .. => some .power
  | differentUnits .. => some .baseUnit
  | relativeRemainder .. => some .relativeLength
  | scalarRemainder _ reason => some reason
  | _ => none

/-- Whether a failure is told by its message; the others are told by their data or not at all. -/
def hasMessage (f : Fault) : Bool :=
  match f with
  | definition _ | contract _ | malformedUtf8 | malformedJson => false
  | _ => true

def message : Fault → String
  | invalidUnit shown => s!"Invalid baseunit: {shown}"
  | powerNotInteger shown => s!"Unit power must be an integer, got {shown}"
  | numericPower power => s!"Invalid power for NUMERIC: {power}"
  | propertyNotIndex shown => s!"Property must be an index or a name, got {shown}"
  | differentPowers verb left right =>
    s!"Can't {verb.text} Numerics of different unit powers: {left.display} {right.display}"
  | differentUnits verb left right | differentFactors verb left right =>
    s!"Can't {verb.text} Numerics of different baseunits: {left} {right}"
  | relativeRemainder left right => s!"Can't mod relative lengths: {left} {right}"
  | scalarRemainder unit _ =>
    s!"Can't mod Numerics of different baseunits: {unit} literal double"
  | relativeByUnit verb left right =>
    s!"Can't {verb.text} a relative length by anything but a length: {left} {right}"
  | unitByRelative verb left right =>
    s!"Can't {verb.text} a unit other than a length by a relative length: {left} {right}"
  | numericWithPower => "Number, Ems or Percentage with non-zero power"
  | needsPowerZero function power =>
    s!"{function}() requires absolute numeric of unit power zero, got power {power.display}"
  | comparesPowerZero function => s!"{function}() must compare numerics of unit power 0"
  | unresolvedEms =>
    "Attempt to validate unresolved Ems factor; it must be multiplied by a length first"
  | unitPower label power => s!"{label} with unit power {power.display}"
  | illegalCategory category property =>
    s!"{category.text} is not a legal value for property '{property}'"
  | unrecognizedUnit shown => s!"Unrecognized baseunit type: {shown}"
  | unknownIndex shown => s!"Unknown property index: {shown}"
  | unknownName shown => s!"Unknown property name: '{shown}'"
  | cannotCombine verb type => s!"Can't {verb.text} {type} and Numeric"
  | unsupportedOperand type => s!"Unsupported operand type for Numeric: {type}"
  | unsupportedOperands operator left right =>
    s!"unsupported operand type(s) for {operator}: '{left}' and '{right}'"
  | cannotConcatenate left right =>
    s!"can only concatenate {left} (not \"{right}\") to {left}"
  | cannotRepeat => "can't multiply sequence by non-int of type 'float'"
  | needsQuantity function type => s!"{function}() requires a Numeric, got {type}"
  | notReal type => s!"must be real number, not {type}"
  | notConvertible type => s!"float() argument must be a string or a real number, not '{type}'"
  | unhashable type => s!"unhashable type: '{type}'"
  | noFactor type => s!"'{type}' object has no attribute 'factor'"
  | missingKey key => Text.quoted key
  | noKeys "list" => "list indices must be integers or slices, not str"
  | noKeys "str" => "string indices must be integers, not 'str'"
  | noKeys type => s!"'{type}' object is not subscriptable"
  | notIterable type => s!"'{type}' object is not iterable"
  | notMapping type =>
    "fo_numeric.core.domain.properties.PropertyDefinition() argument after ** must be a mapping, "
      ++ s!"not {type}"
  | notPhysical shown => s!"Not a physical unit: {shown}"
  | notNumberText shown => s!"could not convert string to float: {shown}"
  | unsupportedWidth shown => s!"bits must be 32 or 64, got {shown}"
  | negativeTolerance => "tolerances must be non-negative"
  | remainderDomain => "math domain error"
  | nanToInteger => "cannot convert float NaN to integer"
  | infinityToInteger => "cannot convert float infinity to integer"
  | integerTooLarge => "int too large to convert to float"
  | integerTooLong =>
    "Exceeds the limit (4300 digits) for integer string conversion; "
      ++ "use sys.set_int_max_str_digits() to increase the limit"
  | quotientTooLarge => "integer division result too large for a float"
  | duplicateIndex index earlier later =>
    s!"Duplicate property index {index}: '{earlier}' and '{later}'"
  | duplicateName name => s!"Duplicate property name: '{name}'"
  | noFile path => s!"[Errno 2] No such file or directory: {Text.quoted path}"
  | directoryFile path => s!"[Errno 21] Is a directory: {Text.quoted path}"
  | fileInFile path => s!"[Errno 20] Not a directory: {Text.quoted path}"
  | nulInPath => "embedded null byte"
  | integerTextTooLong digits =>
    s!"Exceeds the limit (4300 digits) for integer string conversion: value has {digits} digits"
      ++ "; use sys.set_int_max_str_digits() to increase the limit"
  | nestedTooDeep container =>
    s!"maximum recursion depth exceeded while decoding a JSON {container} from a unicode string"
  | noSchema path => s!"Schema not found: {path}"
  | noSchemaDirectory path => s!"Schema directory not found: {path}"
  | invalidSchema name => s!"Invalid JSON Schema in {name}.json"
  | unknownVariable name => s!"Unknown variable: {name}"
  | quantityKept => "A quantity cannot be kept in a field"
  | definition _ | contract _ | malformedUtf8 | malformedJson => ""

end Fault

end Measures
