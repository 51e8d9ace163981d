import RecordFilter.Json.Tree
import RecordFilter.Request.Reading

/-!
# Requests written as JSON

A request is written with every member, under its first name and in the members' own order.
Operators and combinators are written by name and paths as dotted text. A literal that is an enum
member is written as a string, and a special float as null.
-/

namespace RecordFilter

namespace Operator

def toJson (operator : Operator) : Json := .string operator.name

end Operator

namespace Combinator

def toJson (combinator : Combinator) : Json := .string combinator.name

end Combinator

namespace Path

def toJson (path : Path) : Json := .string path.text

end Path

namespace Literal

def toJson : Literal → Json
  | null => .null
  | str text => .string text
  | int value => .number (.int value.val)
  | float value => .number (.float value)
  | bool value => .bool value
  | enum member => .string member

end Literal

namespace Clause

def toJson (clause : Clause) : Json :=
  .object [
    (pathMember.name, clause.path.toJson),
    (operatorMember.name, clause.operator.toJson),
    (valueMember.name, clause.literal.toJson),
    (combinatorMember.name, clause.combinator.toJson)]

end Clause

namespace Group

def toJson (group : Group) : Json :=
  .object [
    (clausesMember.name, .array (group.clauses.map Clause.toJson)),
    (combinatorMember.name, group.combinator.toJson)]

end Group

namespace Request

def toJson (request : Request) : Json :=
  .object [(groupsMember.name, .array (request.groups.map Group.toJson))]

/-- The JSON text of a request. -/
def text (request : Request) : String := request.toJson.text

/-- Whether the text of a request denotes just that request. -/
def isFaithful (request : Request) : Bool :=
  match ofText request.text with
  | .ok other => request == other
  | .error _ => false

end Request

end RecordFilter
