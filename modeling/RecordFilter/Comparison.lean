import RecordFilter.Coercion
import RecordFilter.Text.Order
import RecordFilter.Value

/-!
# Fields compared with literals

A field and a literal of the same family are ordered, strings without case. An integer compared
with a float is first rounded to binary64. Everything else, null and not-a-number included, is
incomparable: equal to nothing, different from everything, and neither less nor greater.
-/

namespace RecordFilter

/-- The order of a field's value and a literal, if they are comparable. -/
def compareField : Value → Coerced → Option Ordering
  | .int a, .int b => some (compare a.val b.val)
  | .float a, .float b => a.compare? b
  | .int a, .float b => (Binary64.ofInt a.val).compare? b
  | .float a, .int b => a.compare? (Binary64.ofInt b.val)
  | .bool a, .bool b => some (compare a b)
  | .enum a, .enum b => some (Text.compareText a b)
  | .dateTime a, .dateTime b => some (a.compare b)
  | .localDateTime a, .localDateTime b => some (a.compare b)
  | .date a, .date b => some (a.compare b)
  | .str a, .str _ folded => some (Text.compareFolded a.toList folded.toList)
  | _, _ => none

/-- Whether an operator holds of two values in this order. The textual operators hold of none. -/
def Operator.accepts : Operator → Option Ordering → Bool
  | .equal, order => order == some .eq
  | .notEqual, order => order != some .eq
  | .greater, order => order == some .gt
  | .greaterOrEqual, order => order == some .gt || order == some .eq
  | .less, order => order == some .lt
  | .lessOrEqual, order => order == some .lt || order == some .eq
  | .contains, _ | .startsWith, _ | .endsWith, _ => false

end RecordFilter
