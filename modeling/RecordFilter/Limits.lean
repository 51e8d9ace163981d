import RecordFilter.Json.Tree
import RecordFilter.Yaml.Node

/-!
# Limits

The bounds on what is compiled. They are configured by a YAML mapping with the members
`maxPathDepth` and `maxClauses`, which may also be spelled with underscores; each of them is a
plain whole number of 64 bits, decimal, or with a letter that gives its base. A missing member
keeps its standard value, and other members are passed over.
-/

namespace RecordFilter

-- Powers are the repeated products of core, whatever else is imported beside this module.
attribute [local instance (high)] instPowNat

/-- The bounds on what is compiled. -/
structure Limits where
  /-- The most segments in a path. -/
  maxPathDepth : Nat
  /-- The most clauses in a request. -/
  maxClauses : Nat
deriving DecidableEq

/-- Why limits cannot be read. -/
inductive LimitsError where
  /-- There is no file at a path. -/
  | noFile (path : String)
  /-- The text is no YAML mapping, or a member of it has no proper value. -/
  | malformed
  /-- No path would have any segment. -/
  | noDepth
deriving DecidableEq

/-- The wording of an error. -/
def LimitsError.message : LimitsError → String
  | noFile path => "Failed to read compiler options: " ++ path
  | malformed => "Failed to parse compiler options"
  | noDepth => "maxPathDepth must be at least 1"

namespace Limits

/-- The bounds where none are configured. -/
def standard : Limits := ⟨16, 1024⟩

/-- The limits with those replaced that are given, whatever they are. -/
def override (limits : Limits) (maxPathDepth maxClauses : Option Nat) : Limits :=
  ⟨maxPathDepth.getD limits.maxPathDepth, maxClauses.getD limits.maxClauses⟩

/-! ## Whole numbers in YAML -/

/-- The number that digits to a base denote. -/
def digitsToBase? (base : Nat) (cs : List Char) : Option Nat := do
  if cs.isEmpty then none
  else
    let digits ← cs.mapM fun c => (Json.hexValue? c).bind fun d => if d < base then some d else none
    return digits.foldl (fun n d => base * n + d) 0

/-- The base that a zero and a letter stand for. -/
def base? : Char → Option Nat
  | 'x' => some 16
  | 'o' => some 8
  | 'b' => some 2
  | _ => none

/-- The number that a plain scalar denotes. A decimal number has no zero in front. -/
def wholeNumber? (cs : List Char) : Option Nat := do
  let body := if cs.head? == some '+' then cs.tail else cs
  let n ← match body with
    | '0' :: c :: digits => (base? c).bind fun base => digitsToBase? base digits
    | digits => digitsToBase? 10 digits
  if n < 2 ^ (64 : Nat) then return n else none

/-! ## The members -/

/-- The members that have been read. -/
structure Parts where
  maxPathDepth : Option Nat
  maxClauses : Option Nat
deriving DecidableEq

/-- A member with its value. -/
def memberValue? : Yaml.Node → Option Nat
  | .scalar true text => wholeNumber? text.toList
  | _ => none

/-- Reads the members of a mapping. None of the two may be given twice. -/
def readEntries? : Parts → List (Yaml.Node × Yaml.Node) → Option Parts
  | parts, [] => some parts
  | parts, (.scalar _ key, value) :: entries =>
    if key = "maxPathDepth" || key = "max_path_depth" then
      match parts.maxPathDepth, memberValue? value with
      | none, some n => readEntries? { parts with maxPathDepth := some n } entries
      | _, _ => none
    else if key = "maxClauses" || key = "max_clauses" then
      match parts.maxClauses, memberValue? value with
      | none, some n => readEntries? { parts with maxClauses := some n } entries
      | _, _ => none
    else readEntries? parts entries
  | _, _ :: _ => none

/-- The limits that a document states. Nothing at all states none. -/
def ofNode? : Option Yaml.Node → Option Limits
  | none | some (.scalar true "") => some standard
  | some (.mapping entries) =>
    (readEntries? ⟨none, none⟩ entries).map fun parts =>
      standard.override parts.maxPathDepth parts.maxClauses
  | some _ => none

/-- The limits that a YAML text states. -/
def ofYaml (text : String) : Except LimitsError Limits :=
  match (Yaml.Node.ofText? text).bind ofNode? with
  | none => .error .malformed
  | some limits => if limits.maxPathDepth = 0 then .error .noDepth else .ok limits

/-- The limits that a file states, given its path and what it holds. -/
def ofFile (path : String) : Option String → Except LimitsError Limits
  | none => .error (.noFile path)
  | some text => ofYaml text

/-- The limits as JSON. -/
def toJson (limits : Limits) : Json :=
  .object [("maxPathDepth", .number (.int limits.maxPathDepth)),
    ("maxClauses", .number (.int limits.maxClauses))]

end Limits

end RecordFilter
