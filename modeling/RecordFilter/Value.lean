import RecordFilter.Calendar.Printing
import RecordFilter.Number.FloatStyle

/-!
# Field values

What a filter sees of a record. Integers of every width are one kind of value and so are floats of
both precisions. A record is read by the exact names of its fields; reading a field that is not
there, or of something that is no record, gives null, so a chain of names can always be followed
to its end.
-/

namespace RecordFilter

/-- A value of a field. -/
inductive Value where
  | null
  | bool (value : Bool)
  | int (value : Int128)
  | float (value : Binary64)
  | str (text : String)
  | enum (member : String)
  | dateTime (moment : Moment)
  | localDateTime (moment : Moment)
  | date (date : Date)
  | record (fields : List (String × Value))
  | list (items : List Value)

namespace Value

def isNull : Value → Bool
  | null => true
  | _ => false

/-- The text of a string. -/
def asText? : Value → Option String
  | str text => some text
  | _ => none

/-- The items of a list. -/
def items? : Value → Option (List Value)
  | list items => some items
  | _ => none

/-- The field of a record with this exact name. -/
def field? (name : String) : Value → Option Value
  | record fields => fields.lookup name
  | _ => none

/-- The field with this exact name, null if there is none. -/
def get (v : Value) (name : String) : Value := (v.field? name).getD null

/-- Follows a chain of field names. -/
def walk (v : Value) (chain : List String) : Value := chain.foldl get v

@[simp] theorem walk_nil (v : Value) : v.walk [] = v := rfl

@[simp] theorem walk_cons (v : Value) (name : String) (chain : List String) :
    v.walk (name :: chain) = (v.get name).walk chain := rfl

@[simp] theorem get_null (name : String) : null.get name = null := rfl

@[simp] theorem walk_null (chain : List String) : null.walk chain = null := by
  induction chain with
  | nil => rfl
  | cons name chain ih => simp [ih]

end Value

end RecordFilter
