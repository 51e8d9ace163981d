import RecordFilter.Json.Structure
import RecordFilter.Json.Tree
import RecordFilter.Request

/-!
# Requests read from JSON

A request is an object with the member `filterGroups`, a group one with `filters` and `combinator`,
and a clause one with `field`, `operator`, `value` and `combinator`; some members have further
names. Only the field and the operator of a clause have to be given. Operators and combinators
stand there by name or by code, paths as dotted text or as a list of segments, and literals as
scalars.
-/

namespace RecordFilter

open Json (Document Reader Member Shape ReadError)

/-- Reads an operator. -/
def Operator.ofDocument : Reader Operator :=
  Json.readCoded "operator" "an operator name or code 1-9" ofCode? ofName?

/-- Reads a combinator. -/
def Combinator.ofDocument : Reader Combinator :=
  Json.readCoded "combinator" "\"And\", \"Or\", 1 or 2" ofCode? ofName?

/-- Reads a path segment. -/
def Path.segmentOfDocument : Reader String
  | .string segment => .ok segment
  | other => .error (other.refuse "a string")

/-- Reads a path. -/
def Path.ofDocument : Reader Path
  | .string text => .ok (ofText text)
  | .array elements closed =>
    (Json.readList wanted segmentOfDocument (.array elements closed)).map ofSegments
  | other => .error (other.refuse wanted)
where
  /-- Paths in words. -/
  wanted : String := "a dotted field path or a list of path segments"

/-- The literal for a number. A whole number with more than 128 bits would become a float. -/
def Literal.ofNumber : Json.Number → Literal
  | .int value =>
    match Int128.ofInt? value with
    | some value => int value
    | none => float (.ofInt value)
  | .float value => float value

/-- Reads a literal. -/
def Literal.ofDocument : Reader Literal
  | .null => .ok null
  | .bool value => .ok (bool value)
  | .number value => .ok (ofNumber value)
  | .string text => .ok (str text)
  | other => .error (other.refuse "null, a string, a number or a boolean")

/-- The literal for a JSON value. A number is tried as a whole number with a sign, as one without a
sign, and at last as a float. A container becomes its compact text, which no field will take. -/
def Literal.ofJson : Json → Literal
  | .null => null
  | .bool value => bool value
  | .number value =>
    match value.toSigned? with
    | some whole => int (.clamp whole)
    | none =>
      match value.toUnsigned? with
      | some whole => int (.clamp whole)
      | none => float value.toFloat
  | .string text => str text
  | container => str container.text

/-! ## Clauses -/

/-- The members of a clause that have been read. -/
structure Clause.Parts where
  path : Option Path
  operator : Option Operator
  literal : Option Literal
  combinator : Option Combinator
deriving DecidableEq

namespace Clause

/-- The path of a clause. -/
def pathMember : Member Parts where
  name := "field"
  otherNames := ["path", "key", "fieldName"]
  isGiven parts := parts.path.isSome
  read document parts := (Path.ofDocument document).map fun x => { parts with path := some x }

def operatorMember : Member Parts where
  name := "operator"
  otherNames := []
  isGiven parts := parts.operator.isSome
  read document parts :=
    (Operator.ofDocument document).map fun x => { parts with operator := some x }

/-- The literal of a clause. -/
def valueMember : Member Parts where
  name := "value"
  otherNames := []
  isGiven parts := parts.literal.isSome
  read document parts := (Literal.ofDocument document).map fun x => { parts with literal := some x }

def combinatorMember : Member Parts where
  name := "combinator"
  otherNames := ["andOr"]
  isGiven parts := parts.combinator.isSome
  read document parts :=
    (Combinator.ofDocument document).map fun x => { parts with combinator := some x }

/-- The clause with these members. -/
def ofParts (parts : Parts) : Except String Clause :=
  match parts.path, parts.operator with
  | none, _ => .error pathMember.name
  | some _, none => .error operatorMember.name
  | some path, some operator =>
    .ok ⟨path, operator, parts.literal.getD .null, parts.combinator.getD .standard⟩

def shape : Shape Parts Clause where
  title := "struct Filter"
  members := [pathMember, operatorMember, valueMember, combinatorMember]
  start := ⟨none, none, none, none⟩
  finish := ofParts

/-- Reads a clause. -/
def ofDocument : Reader Clause := shape.read

end Clause

/-! ## Groups -/

/-- The members of a group that have been read. -/
structure Group.Parts where
  clauses : Option (List Clause)
  combinator : Option Combinator
deriving DecidableEq

namespace Group

/-- The clauses of a group. -/
def clausesMember : Member Parts where
  name := "filters"
  otherNames := []
  isGiven parts := parts.clauses.isSome
  read document parts :=
    (Json.readList "a sequence" Clause.ofDocument document).map fun x =>
      { parts with clauses := some x }

def combinatorMember : Member Parts where
  name := "combinator"
  otherNames := ["groupAndOr"]
  isGiven parts := parts.combinator.isSome
  read document parts :=
    (Combinator.ofDocument document).map fun x => { parts with combinator := some x }

/-- The group with these members. -/
def ofParts (parts : Parts) : Except String Group :=
  .ok ⟨parts.clauses.getD [], parts.combinator.getD .standard⟩

def shape : Shape Parts Group where
  title := "struct FilterGroup"
  members := [clausesMember, combinatorMember]
  start := ⟨none, none⟩
  finish := ofParts

/-- Reads a group. -/
def ofDocument : Reader Group := shape.read

end Group

/-! ## Requests -/

namespace Request

/-- The groups of a request. -/
def groupsMember : Member (Option (List Group)) where
  name := "filterGroups"
  otherNames := []
  isGiven parts := parts.isSome
  read document _ := (Json.readList "a sequence" Group.ofDocument document).map some

def shape : Shape (Option (List Group)) Request where
  title := "struct SearchFilters"
  members := [groupsMember]
  start := none
  finish parts := .ok ⟨parts.getD []⟩

/-- Reads a request. -/
def ofDocument : Reader Request := shape.read

/-- The request that a JSON text denotes. -/
def ofText (text : String) : Except ReadError Request := Reader.ofText ofDocument text

end Request

end RecordFilter
