import RecordFilter.Number.FloatStyle

/-!
# Literals

What a clause compares a field with, before the type of the field is known.
-/

namespace RecordFilter

/-- A literal as it stands in a clause. -/
inductive Literal where
  | null
  | str (text : String)
  | int (value : Int128)
  | float (value : Binary64)
  | bool (value : Bool)
  | enum (member : String)
deriving DecidableEq

namespace Literal

/-- The text of a string or enum literal. -/
def asText? : Literal → Option String
  | str text => some text
  | enum member => some member
  | _ => none

def isNull : Literal → Bool
  | null => true
  | _ => false

theorem isNull_of_ne {literal : Literal} (h : literal ≠ .null) : literal.isNull = false := by
  cases literal with
  | null => exact absurd rfl h
  | _ => rfl

/-- The kind of the literal in words. -/
def kind : Literal → String
  | null => "null"
  | str _ => "string"
  | int _ => "integer"
  | float _ => "float"
  | bool _ => "boolean"
  | enum _ => "enum"

/-- The literal as text; floats in plain style. -/
def text : Literal → String
  | null => "null"
  | str text => text
  | int value => value.text
  | float value => String.ofList (FloatStyle.plain.render value)
  | bool value => if value then "true" else "false"
  | enum member => member

end Literal

end RecordFilter
