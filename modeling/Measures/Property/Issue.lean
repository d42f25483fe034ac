import Measures.Schema.Violation

/-!
# What a definition is refused for
-/

namespace Measures

inductive IssueKind where
  | missing
  | intType
  | intParsing
  | intParsingSize
  | intFromFloat
  | finiteNumber
  | greaterThanEqual
  | stringType
  | stringUnicode
  | stringTooShort
  | stringPatternMismatch
  | setType
  | enum
  | emptyCategories
  deriving DecidableEq, Repr

namespace IssueKind

def text : IssueKind → String
  | missing => "missing"
  | intType => "int_type"
  | intParsing => "int_parsing"
  | intParsingSize => "int_parsing_size"
  | intFromFloat => "int_from_float"
  | finiteNumber => "finite_number"
  | greaterThanEqual => "greater_than_equal"
  | stringType => "string_type"
  | stringUnicode => "string_unicode"
  | stringTooShort => "string_too_short"
  | stringPatternMismatch => "string_pattern_mismatch"
  | setType => "frozen_set_type"
  | enum => "enum"
  | emptyCategories => "value_error"

/-- The message of a rule that is not about the form of one field. -/
def message? : IssueKind → Option String
  | emptyCategories => some "categories must not be empty"
  | _ => none

end IssueKind

/-- One thing wrong with the fields of a definition, and where. -/
structure Issue where
  path : List PathStep
  kind : IssueKind
  deriving DecidableEq, Repr

end Measures
