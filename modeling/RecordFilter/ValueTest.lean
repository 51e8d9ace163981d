import RecordFilter.Comparison

/-!
# Tests of a single value

An operator and a converted literal make a test of one value, if the type of the value goes with
them: records and lists can only be tested for null, textual operators need strings, orderings need
an ordered type, and null can only be equal or not equal. A string literal is compared with strings
without case; every other value fails such a test, except the test for being different.
-/

namespace RecordFilter

/-- A test of a single value. -/
inductive ValueTest where
  | isNull
  | isNotNull
  /-- The operator, on text against a folded literal. -/
  | text (operator : Operator) (folded : String)
  /-- The operator, on the order of the value and a literal. -/
  | order (operator : Operator) (literal : Coerced)
deriving DecidableEq

namespace ValueTest

/-- Whether the operator holds between a text and a folded literal. -/
def textHolds (operator : Operator) (text folded : List Char)
    (lower : Char → List Char := Text.lowerCase) : Bool :=
  match operator with
  | .equal => Text.eqFolded text folded lower
  | .notEqual => !Text.eqFolded text folded lower
  | .contains => Text.hasInfix (Text.foldChars text lower) folded
  | .startsWith => Text.startsWithFolded text folded lower
  | .endsWith => Text.hasSuffix (Text.foldChars text lower) folded
  | ordering => ordering.accepts (some (Text.compareFolded text folded lower))

/-- Whether a value passes the test. -/
def passes : ValueTest → Value → Bool
  | isNull, v => v.isNull
  | isNotNull, v => !v.isNull
  | text operator folded, v =>
    match v.asText? with
    | some s => textHolds operator s.toList folded.toList
    | none => operator == .notEqual
  | order operator literal, v => operator.accepts (compareField v literal)

/-- The first objection to testing values of a type in this way. -/
def objection? {ρ : Type} (catalog : Catalog ρ) (type : FieldType ρ) (literal : Coerced)
    (operator : Operator) : Option FilterError :=
  if type.isComposite && !(literal.isNull && type.isOptional) then
    some (.unsupportedOperator operator (type.name catalog))
  else if operator.isTextual && !type.isString then
    some (.unsupportedOperator operator (type.name catalog))
  else if operator.isOrdering && !type.isOrderable then
    some (.unsupportedOperator operator (type.name catalog))
  else if literal.isNull && operator != .equal && operator != .notEqual then
    some (.unsupportedOperator operator "null")
  else none

/-- The test that an operator and a converted literal make. -/
def ofCoerced (literal : Coerced) (operator : Operator) : ValueTest :=
  match literal with
  | .null => if operator = .equal then isNull else isNotNull
  | .str _ folded => text operator folded
  | other => order operator other

/-- The test that an operator and a converted literal make of values of a type. -/
def build {ρ : Type} (catalog : Catalog ρ) (type : FieldType ρ) (literal : Coerced)
    (operator : Operator) : Except FilterError ValueTest :=
  match objection? catalog type literal operator with
  | some error => .error error
  | none => .ok (ofCoerced literal operator)

section Build

variable {ρ : Type} {catalog : Catalog ρ} {type : FieldType ρ} {literal : Coerced}
  {operator : Operator}

/-- What operator, literal and type have to agree on. -/
theorem objection?_eq_none_iff :
    objection? catalog type literal operator = none ↔
      (type.isComposite = true → literal.isNull = true ∧ type.isOptional = true) ∧
      (operator.isTextual = true → type.isString = true) ∧
      (operator.isOrdering = true → type.isOrderable = true) ∧
      (literal.isNull = true → operator = .equal ∨ operator = .notEqual) := by
  unfold objection?
  grind

theorem build_eq_ok_iff {test : ValueTest} :
    build catalog type literal operator = .ok test ↔
      objection? catalog type literal operator = none ∧ ofCoerced literal operator = test := by
  unfold build
  cases objection? catalog type literal operator <;> simp

end Build

end ValueTest

end RecordFilter
