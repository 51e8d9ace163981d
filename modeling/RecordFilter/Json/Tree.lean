import RecordFilter.Json.Document
import RecordFilter.Number.FloatStyle
import RecordFilter.Text.Order

/-!
# JSON values

A JSON value, its compact text, and the value of a document. Members of an object that was read
are sorted by key, and of members with the same key the last one counts. A document has a value if
all of it is there and it is not nested too deeply.
-/

namespace RecordFilter

/-- A JSON value. -/
inductive Json where
  | null
  | bool (value : Bool)
  | number (value : Json.Number)
  | string (text : String)
  | array (elements : List Json)
  | object (members : List (String × Json))

namespace Json

/-! ## Writing -/

/-- The text of a number. The special floats have none and are written as null. -/
def Number.chars : Number → List Char
  | int value => intChars value
  | float value => if value.isFinite then FloatStyle.json.render value else "null".toList

mutual

/-- The compact text of a value. -/
def chars : Json → List Char
  | null => "null".toList
  | bool value => if value then "true".toList else "false".toList
  | number value => value.chars
  | string text => quote text.toList
  | array elements => '[' :: elementChars elements ++ [']']
  | object members => '{' :: memberChars members ++ ['}']

/-- Values with commas between them. -/
def elementChars : List Json → List Char
  | [] => []
  | [element] => element.chars
  | element :: elements => element.chars ++ ',' :: elementChars elements

/-- Members with commas between them. -/
def memberChars : List (String × Json) → List Char
  | [] => []
  | [(key, value)] => quote key.toList ++ ':' :: value.chars
  | (key, value) :: members =>
    quote key.toList ++ ':' :: value.chars ++ ',' :: memberChars members

end

/-- The compact text of a value. -/
def text (j : Json) : String := String.ofList j.chars

/-! ## Values of documents -/

/-- Puts a member in its place among sorted members, instead of one with the same key. -/
def putMember (key : String) (value : Json) : List (String × Json) → List (String × Json)
  | [] => [(key, value)]
  | (key', value') :: members =>
    match Text.compareText key key' with
    | .lt => (key, value) :: (key', value') :: members
    | .eq => (key, value) :: members
    | .gt => (key', value') :: putMember key value members

mutual

/-- The value of a document with containers nested at most `depth` deep. -/
def ofDocument? (depth : Nat) : Document → Option Json
  | .missing | .valueless => none
  | .null => some null
  | .bool value => some (bool value)
  | .number value => some (number value)
  | .string text => some (string text)
  | .array elements closed =>
    if closed && 0 < depth then (ofElements? (depth - 1) elements).map array else none
  | .object members closed =>
    if closed && 0 < depth then (ofMembers? (depth - 1) [] members).map object else none

/-- The values of documents. -/
def ofElements? (depth : Nat) : List Document → Option (List Json)
  | [] => some []
  | document :: documents =>
    match ofDocument? depth document, ofElements? depth documents with
    | some element, some elements => some (element :: elements)
    | _, _ => none

/-- Members added to sorted ones. -/
def ofMembers? (depth : Nat) (sorted : List (String × Json)) :
    List (Option String × Document) → Option (List (String × Json))
  | [] => some sorted
  | (some key, document) :: members =>
    match ofDocument? depth document with
    | some value => ofMembers? depth (putMember key value sorted) members
    | none => none
  | (none, _) :: _ => none

end

/-- How deeply containers may be nested in a text that is read as a value. -/
def maxNesting : Nat := 127

/-- The value that a text denotes. -/
def parse? (text : String) : Option Json :=
  match Document.read text with
  | (document, true) => ofDocument? maxNesting document
  | (_, false) => none

end Json

end RecordFilter
