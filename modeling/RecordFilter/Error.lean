import RecordFilter.Operator
import RecordFilter.Number.Integer

/-!
# Why a request does not compile

The causes, and their wording in `FilterError.message`.
-/

namespace RecordFilter

/-- A quantity with a configured limit. -/
inductive Limited where
  | pathDepth
  | clauseCount
deriving DecidableEq

def Limited.label : Limited → String
  | .pathDepth => "field path depth"
  | .clauseCount => "filter clause count"

/-- Why a request does not compile. -/
inductive FilterError where
  /-- A type has no field for a path segment. -/
  | unknownField (segment typeName : String)
  /-- A literal, shown as text, is no value of a type. -/
  | conversion (literal typeName : String)
  /-- A type, or the null literal, does not go with an operator. -/
  | unsupportedOperator (operator : Operator) (typeName : String)
  /-- A limit is exceeded. -/
  | limitExceeded (what : Limited) (limit : Nat)
deriving DecidableEq

/-- The wording of an error. -/
def FilterError.message : FilterError → String
  | .unknownField segment typeName =>
    "field '" ++ segment ++ "' not found on type '" ++ typeName ++ "'"
  | .conversion literal typeName =>
    "cannot convert value '" ++ literal ++ "' to type '" ++ typeName ++ "'"
  | .unsupportedOperator operator typeName =>
    "operator '" ++ operator.name ++ "' is not supported for type '" ++ typeName ++ "'"
  | .limitExceeded what limit =>
    what.label ++ " exceeds the configured limit of " ++ intText limit

end RecordFilter
