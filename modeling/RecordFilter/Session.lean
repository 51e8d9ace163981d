import RecordFilter.Compilation
import RecordFilter.Request.Writing

/-!
# Sessions

A session is a request under construction, with limits to compile it under, the conditions that
were compiled so far, and records to try them on. Groups and conditions are numbered from zero. A
step that fails has no session as its result, so nothing is changed by it.
-/

namespace RecordFilter

/-- What a session holds. -/
structure Session where
  limits : Limits
  request : Request
  conditions : List Condition
  records : List Value

/-- Why a step fails. -/
inductive SessionError where
  /-- There is no group with this number. -/
  | noGroup
  /-- There is no condition with this number. -/
  | noCondition
  | limits (error : LimitsError)
  | text (error : Json.ReadError)
  | filter (error : FilterError)

namespace Session

/-- The session before its first step. -/
def start : Session := ⟨.standard, .empty, [], []⟩

/-! ## Limits -/

/-- Sets the limits that are given, whatever they are. -/
def setLimits (s : Session) (maxPathDepth maxClauses : Option Nat) : Session :=
  { s with limits := s.limits.override maxPathDepth maxClauses }

/-- Takes the limits from a YAML text. -/
def readLimits (s : Session) (text : String) : Except SessionError Session :=
  match Limits.ofYaml text with
  | .ok limits => .ok { s with limits }
  | .error error => .error (.limits error)

/-! ## The request -/

/-- Takes the request from a JSON text. -/
def readRequest (s : Session) (text : String) : Except SessionError Session :=
  match Request.ofText text with
  | .ok request => .ok { s with request }
  | .error error => .error (.text error)

/-- Adds a group without clauses. -/
def addGroup (s : Session) : Session := { s with request := ⟨s.request.groups ++ [.empty]⟩ }

/-- Removes a group. -/
def removeGroup (s : Session) (group : Nat) : Except SessionError Session :=
  if group < s.request.groups.length then
    .ok { s with request := ⟨s.request.groups.eraseIdx group⟩ }
  else .error .noGroup

/-- Changes a group. -/
def changeGroup (s : Session) (group : Nat) (change : Group → Group) :
    Except SessionError Session :=
  if group < s.request.groups.length then
    .ok { s with request := ⟨s.request.groups.modify group change⟩ }
  else .error .noGroup

/-- Sets how a group is joined to the ones before. -/
def joinGroup (s : Session) (group : Nat) (combinator : Combinator) :
    Except SessionError Session :=
  s.changeGroup group fun g => { g with combinator }

/-- Adds a clause to a group. -/
def addClause (s : Session) (group : Nat) (clause : Clause) : Except SessionError Session :=
  s.changeGroup group fun g => { g with clauses := g.clauses ++ [clause] }

/-- Removes the last clause of a group; also whether there was one. -/
def dropClause (s : Session) (group : Nat) : Except SessionError (Bool × Session) :=
  match s.request.groups[group]? with
  | none => .error .noGroup
  | some g =>
    (s.changeGroup group fun g => { g with clauses := g.clauses.dropLast }).map fun s =>
      (!g.isEmpty, s)

/-! ## Conditions -/

/-- Adds a condition. -/
def addCondition (s : Session) (condition : Condition) : Session :=
  { s with conditions := s.conditions ++ [condition] }

/-- The condition with a number. -/
def condition (s : Session) (number : Nat) : Except SessionError Condition :=
  match s.conditions[number]? with
  | some condition => .ok condition
  | none => .error .noCondition

/-- Compiles the request against a record type and adds the condition. -/
def compile {ρ : Type} (s : Session) (catalog : Catalog ρ) (root : ρ) :
    Except SessionError Session :=
  match s.request.compile catalog root s.limits with
  | .ok condition => .ok (s.addCondition condition)
  | .error error => .error (.filter error)

/-- Adds a condition once more. -/
def copyCondition (s : Session) (number : Nat) : Except SessionError Session :=
  (s.condition number).map s.addCondition

/-! ## Records -/

/-- Adds a record. -/
def addRecord (s : Session) (record : Value) : Session :=
  { s with records := s.records ++ [record] }

/-- Removes all records. -/
def clearRecords (s : Session) : Session := { s with records := [] }

/-- Whether each record meets a condition. -/
def matched (s : Session) (number : Nat) : Except SessionError (List Bool) :=
  (s.condition number).map fun condition => s.records.map condition.holds

/-- The records that meet a condition. -/
def kept (s : Session) (number : Nat) : Except SessionError (List Value) :=
  (s.condition number).map fun condition => condition.filter s.records

end Session

end RecordFilter
