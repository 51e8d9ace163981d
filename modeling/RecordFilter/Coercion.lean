import RecordFilter.Calendar.Reading
import RecordFilter.Error
import RecordFilter.Literal
import RecordFilter.Schema
import RecordFilter.Text.Folding

/-!
# Literals converted to the type of a field

A literal is converted once, to exactly the type of the field that it is compared with. Null goes
to nullable types only. Enum members are found by name, text is taken as it stands, whole numbers
are never rounded or wrapped, and single-precision fields are compared at their own precision.
-/

namespace RecordFilter

/-- A literal converted to the type of a field. -/
inductive Coerced where
  | null
  | bool (value : Bool)
  | int (value : Int128)
  | float (value : Binary64)
  /-- Text with its folded form, which comparisons use. -/
  | str (raw folded : String)
  | enum (member : String)
  | dateTime (moment : Moment)
  | localDateTime (moment : Moment)
  | date (date : Date)
deriving DecidableEq

namespace Coerced

def isNull : Coerced → Bool
  | null => true
  | _ => false

/-- Text together with its folded form. -/
def ofText (text : String) : Coerced := str text (Text.foldCase text)

end Coerced

namespace Literal

/-- A truth value, or one of the words `true` and `false`. -/
def toBool? : Literal → Option Bool
  | bool value => some value
  | str text =>
    let word := Text.trim text
    if Text.sameName word "true" then some true
    else if Text.sameName word "false" then some false
    else none
  | _ => none

/-- A whole number of the given kind: an integer, a float without a fraction, or digits. -/
def toInt? (kind : IntKind) : Literal → Option Int128
  | int value => inKind value
  | float value => value.toInt?.bind fun whole =>
    -- As floats the upper bounds of 64 bits are rounded up, so `inKind` has to look again.
    if value.isLess (.ofInt kind.low) || (Binary64.ofInt kind.high).isLess value then none
    else inKind (.clamp whole)
  | str text => (Int128.ofChars? (Text.trimChars text.toList)).bind inKind
  | _ => none
where
  /-- The number, if the kind has it. -/
  inKind (i : Int128) : Option Int128 := if kind.contains i.val then some i else none

/-- A floating-point number of the given precision. -/
def toFloat? (kind : FloatKind) : Literal → Option Binary64
  | int value => atPrecision (.ofInt value.val)
  | float value => atPrecision value
  | str text => (Binary64.ofChars? (Text.trimChars text.toList)).bind atPrecision
  | _ => none
where
  /-- The number, rounded to the precision if that has it. -/
  atPrecision (x : Binary64) : Option Binary64 :=
    match kind with
    | .double => some x
    | .single => x.toSingle?

/-- The literal as a value of a type without optional wrappers. -/
def coerceTo? {ρ : Type} (literal : Literal) : FieldType ρ → Option Coerced
  | .bool => literal.toBool?.map .bool
  | .int kind => (literal.toInt? kind).map .int
  | .float kind => (literal.toFloat? kind).map .float
  | .string => some (.ofText literal.text)
  | .dateTime => (literal.asText?.bind (Moment.instantOfChars? ·.toList)).map .dateTime
  | .localDateTime => (literal.asText?.bind (Moment.ofChars? ·.toList)).map .localDateTime
  | .date => (literal.asText?.bind (Date.ofChars? ·.toList)).map .date
  | .enum type => (type.find? (Text.trim literal.text)).map .enum
  | .optional _ | .list _ | .record _ => none

/-- The literal as a value of a type. -/
def coerce {ρ : Type} (catalog : Catalog ρ) (literal : Literal) (target : FieldType ρ) :
    Except FilterError Coerced :=
  if literal.isNull then
    if target.isOptional then .ok .null else .error (.conversion literal.text (target.name catalog))
  else match literal.coerceTo? target.unwrap with
    | some coerced => .ok coerced
    | none => .error (.conversion literal.text (target.unwrap.name catalog))

section NotNull

variable {ρ : Type} {catalog : Catalog ρ} {literal : Literal} {type : FieldType ρ}

theorem coerce_null : null.coerce catalog type =
    if type.isOptional then .ok .null else .error (.conversion "null" (type.name catalog)) := rfl

/-- A literal other than null is converted without regard to optional wrappers. -/
theorem coerce_eq_ok_iff {coerced : Coerced} (h : literal.isNull = false) :
    literal.coerce catalog type = .ok coerced ↔ literal.coerceTo? type.unwrap = some coerced := by
  unfold coerce
  rw [h, if_neg Bool.false_ne_true]
  cases literal.coerceTo? type.unwrap <;> simp

theorem coerce_of_none (h : literal.isNull = false) (hnone : literal.coerceTo? type.unwrap = none) :
    literal.coerce catalog type =
      .error (.conversion literal.text (type.unwrap.name catalog)) := by
  rw [coerce, h, if_neg Bool.false_ne_true, hnone]

end NotNull

end Literal

end RecordFilter
