import RecordFilter.Text.Name

/-!
# Types of fields and records

A record type lists its fields with their types. Record types refer to each other, and to
themselves, through references of an arbitrary type `ρ`; a catalog gives the record type behind
every reference, so no reference can dangle. A reference has no name of its own: a record type is
called by its name wherever it is referred to.
-/

namespace RecordFilter

-- Powers are the repeated products of core, whatever else is imported beside this module.
attribute [local instance (high)] instPowNat

/-- The width of an integer field. The pointer-sized kinds have 64 bits. -/
inductive IntKind where
  | int8
  | int16
  | int32
  | int64
  | intSize
  | uint8
  | uint16
  | uint32
  | uint64
  | uintSize
deriving DecidableEq

namespace IntKind

def all : List IntKind :=
  [int8, int16, int32, int64, intSize, uint8, uint16, uint32, uint64, uintSize]

def name : IntKind → String
  | int8 => "i8"
  | int16 => "i16"
  | int32 => "i32"
  | int64 => "i64"
  | intSize => "isize"
  | uint8 => "u8"
  | uint16 => "u16"
  | uint32 => "u32"
  | uint64 => "u64"
  | uintSize => "usize"

def isSigned : IntKind → Bool
  | int8 | int16 | int32 | int64 | intSize => true
  | _ => false

def bits : IntKind → Nat
  | int8 | uint8 => 8
  | int16 | uint16 => 16
  | int32 | uint32 => 32
  | int64 | intSize | uint64 | uintSize => 64

/-- The least value. -/
def low (k : IntKind) : Int := if k.isSigned then -2 ^ (k.bits - 1) else 0

/-- The greatest value. -/
def high (k : IntKind) : Int := (if k.isSigned then 2 ^ (k.bits - 1) else 2 ^ k.bits) - 1

def contains (k : IntKind) (i : Int) : Bool := k.low ≤ i && i ≤ k.high

def ofName? (name : String) : Option IntKind := all.find? (·.name == name)

end IntKind

/-- The precision of a floating-point field. -/
inductive FloatKind where
  | single
  | double
deriving DecidableEq

def FloatKind.name : FloatKind → String
  | .single => "f32"
  | .double => "f64"

/-- A named list of members. -/
structure EnumType where
  name : String
  members : List String
deriving DecidableEq

/-- The first member with this name, ASCII case ignored, as it is declared. -/
def EnumType.find? (e : EnumType) (name : String) : Option String :=
  e.members.find? (Text.sameName · name)

/-- The type of a field. -/
inductive FieldType (ρ : Type) where
  | bool
  | int (kind : IntKind)
  | float (kind : FloatKind)
  | string
  | dateTime
  | localDateTime
  | date
  | enum (type : EnumType)
  | optional (inner : FieldType ρ)
  | list (element : FieldType ρ)
  | record (reference : ρ)
deriving DecidableEq

/-- A field of a record type. -/
structure Field (ρ : Type) where
  name : String
  type : FieldType ρ
deriving DecidableEq

/-- A record type. -/
structure RecordType (ρ : Type) where
  name : String
  fields : List (Field ρ)
deriving DecidableEq

/-- The record types behind the references. -/
abbrev Catalog (ρ : Type) := ρ → RecordType ρ

/-- The field that a path segment names: the first with the same name but for ASCII case, else the
first with the same name but for ASCII case and underscores. The empty segment names nothing. -/
def RecordType.find? {ρ : Type} (r : RecordType ρ) (segment : String) : Option (Field ρ) :=
  if segment.isEmpty then none
  else match r.fields.find? fun f => Text.sameName f.name segment with
    | some field => some field
    | none => r.fields.find? fun f => Text.similarName f.name segment

namespace RecordType

variable {ρ : Type} {r : RecordType ρ} {segment : String} {f : Field ρ}

/-- A field is found by the first look, or by the second where the first finds nothing. -/
theorem find?_eq_some_iff : r.find? segment = some f ↔ segment ≠ "" ∧
    (r.fields.find? (Text.sameName ·.name segment) = some f ∨
      r.fields.find? (Text.sameName ·.name segment) = none ∧
        r.fields.find? (Text.similarName ·.name segment) = some f) := by
  unfold find?
  by_cases hempty : segment = ""
  · simp [hempty]
  · cases r.fields.find? (Text.sameName ·.name segment) <;> simp [hempty]

theorem mem_of_find? (h : r.find? segment = some f) : f ∈ r.fields := by
  rcases (find?_eq_some_iff.1 h).2 with hfound | ⟨-, hfound⟩
  · exact List.mem_of_find?_eq_some hfound
  · exact List.mem_of_find?_eq_some hfound

theorem similarName_of_find? (h : r.find? segment = some f) :
    Text.similarName f.name segment = true := by
  rcases (find?_eq_some_iff.1 h).2 with hfound | ⟨-, hfound⟩
  · have hsame := List.find?_some hfound
    exact Text.similarName_of_sameName hsame
  · have hsimilar := List.find?_some hfound
    exact hsimilar

end RecordType

namespace FieldType

variable {ρ : Type}

/-- The type without its optional wrappers. -/
def unwrap : FieldType ρ → FieldType ρ
  | optional inner => inner.unwrap
  | other => other

def isOptional : FieldType ρ → Bool
  | optional _ => true
  | _ => false

/-- The type of the elements of a collection, nullable or not. -/
def element? (t : FieldType ρ) : Option (FieldType ρ) :=
  match t.unwrap with
  | list element => some element
  | _ => none

/-- The record type of a record, nullable or not. -/
def record? (t : FieldType ρ) : Option ρ :=
  match t.unwrap with
  | record reference => some reference
  | _ => none

def isString (t : FieldType ρ) : Bool :=
  match t.unwrap with
  | string => true
  | _ => false

/-- Whether the values of the type are ordered. -/
def isOrderable (t : FieldType ρ) : Bool :=
  match t.unwrap with
  | int _ | float _ | string | dateTime | localDateTime | date => true
  | _ => false

/-- Whether the values of the type have parts, and so no literal. -/
def isComposite (t : FieldType ρ) : Bool :=
  match t.unwrap with
  | record _ | list _ => true
  | _ => false

/-- The name of the type in messages. A record goes by the name of the record type behind its
reference. -/
def name (catalog : Catalog ρ) : FieldType ρ → String
  | bool => "bool"
  | int kind => kind.name
  | float kind => kind.name
  | string => "String"
  | dateTime => "DateTime<Utc>"
  | localDateTime => "NaiveDateTime"
  | date => "NaiveDate"
  | enum type => type.name
  | optional inner => "Option<" ++ inner.name catalog ++ ">"
  | list element => "Vec<" ++ element.name catalog ++ ">"
  | record reference => (catalog reference).name

@[simp] theorem unwrap_unwrap (t : FieldType ρ) : t.unwrap.unwrap = t.unwrap := by
  induction t with
  | optional inner ih => exact ih
  | _ => rfl

end FieldType

end RecordFilter
