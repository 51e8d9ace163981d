import RecordFilter.Text.Inspected
import RecordFilter.Value

/-!
# Field values shown for inspection

A scalar is shown with its kind, a record by its kind alone and a list by its length.
-/

namespace RecordFilter

namespace Value

/-- A value as it is shown for inspection. -/
def inspected : Value → List Char
  | null => "Null".toList
  | bool value => tagged "Bool" (if value then "true" else "false").toList
  | int value => tagged "Int" (intChars value.val)
  | float value => tagged "Float" (FloatStyle.inspected.render value)
  | str text => tagged "Str" (Text.inspected text)
  | enum member => tagged "Enum" (Text.inspected member)
  | dateTime moment => tagged "DateTime" (moment.chars ++ ['Z'])
  | localDateTime moment => tagged "NaiveDateTime" moment.chars
  | date day => tagged "Date" day.chars
  | record _ => "Record(..)".toList
  | list items => tagged "List" ("len = ".toList ++ intChars items.length)
where
  /-- A kind with something in parentheses. -/
  tagged (kind : String) (content : List Char) : List Char :=
    kind.toList ++ '(' :: content ++ [')']

/-- Looks at items in order up to the one in place `stop`, counted from one: whether it was found,
and how many items were looked at. -/
def lookUpTo (stop : Nat) : List Value → Bool × Nat
  | [] => (false, 0)
  | _ :: items =>
    if stop = 1 then (true, 1)
    else
      let (found, count) := lookUpTo (stop - 1) items
      (found, count + 1)

end Value

end RecordFilter
