import Measures.Quantity.Function

/-!
# Questions about a quantity

Everything that one quantity alone answers, without being changed.
-/

namespace Measures

inductive Query where
  -- classification
  | isNumeric
  | isNumber
  | isEms
  | isPercentage
  | isLength
  | isDistance
  | isTime
  | isFrequency
  | isAngle
  -- the value
  | asDouble
  | asLong
  | asInt
  -- names
  | unitName
  | madeUnitName
  | literalUnitName
  -- text
  | text
  | fullText
  -- functions of power zero
  | abs
  | ceiling
  | floor
  | round
  deriving DecidableEq, Repr

namespace Query

def answer (q : Quantity) : Query → Except Fault Datum
  | isNumeric => q.isNumeric.map .bool
  | isNumber => .ok (.bool q.isNumber)
  | isEms => .ok (.bool q.isEms)
  | isPercentage => .ok (.bool q.isPercentage)
  | isLength => .ok (.bool q.isLength)
  | isDistance => q.isDistance.map .bool
  | isTime => .ok (.bool q.isTime)
  | isFrequency => .ok (.bool q.isFrequency)
  | isAngle => .ok (.bool q.isAngle)
  | asDouble => .ok (.float q.value)
  | asLong => .ok (.int q.asLong)
  | asInt => .ok (.int q.asInt)
  | unitName => .ok (.text q.unitName)
  | madeUnitName => .ok (.text q.madeUnitName)
  | literalUnitName => q.literalUnitName.map .text
  | text => .ok (.text q.text)
  | fullText => q.fullText.map .text
  | abs => q.abs.map .float
  | ceiling => q.ceiling.map .float
  | floor => q.floor.map .float
  | round => q.round.map .int

/-- The questions whose answers describe a quantity: all but the functions of power zero. -/
def described : List Query := [isNumeric, isNumber, isEms, isPercentage, isLength, isDistance,
  isTime, isFrequency, isAngle, asDouble, asLong, asInt, unitName, madeUnitName, literalUnitName,
  text, fullText]

end Query

def Quantity.describe (q : Quantity) : Except Fault (List (Query × Datum)) :=
  Query.described.mapM fun query => (query.answer q).map (query, ·)

end Measures
