import RecordFilter.Json.Document
import RecordFilter.Number.FloatStyle
import RecordFilter.Text.Inspected

/-!
# What can be wrong with a JSON text

A text may not be JSON, or be JSON of another shape than wanted. The causes are kept apart in
`ReadError`, and worded by `ReadError.message?`; a text that is no JSON has no wording.
-/

namespace RecordFilter.Json

/-- What was found where something else was wanted. -/
inductive Found where
  | null
  | bool (value : Bool)
  | number (value : Number)
  | string (text : String)
  | array
  | object

/-- What is wrong with a text. -/
inductive ReadError where
  /-- The text is not JSON, or has something after its end. -/
  | malformed
  /-- One kind of value stands where another is wanted. -/
  | wrongKind (found : Found) (wanted : String)
  /-- A whole number stands for nothing that is wanted. -/
  | wrongCode (code : Int) (wanted : String)
  /-- A string names none of the things of a kind. -/
  | unknownName (kind name : String)
  | missingMember (name : String)
  | repeatedMember (name : String)
  /-- An array has too few elements to stand for a structure. -/
  | tooShort (length : Nat) (wanted : String)

/-- What was found, in words. -/
def Found.text : Found → String
  | null => "null"
  | bool value => "boolean `" ++ (if value then "true" else "false") ++ "`"
  | number (.int value) => "integer `" ++ intText value ++ "`"
  | number (.float value) =>
    "floating point `" ++ String.ofList (FloatStyle.json.render value) ++ "`"
  | string text => "string " ++ String.ofList (Text.inspected text)
  | array => "sequence"
  | object => "map"

/-- The wording of an error. -/
def ReadError.message? : ReadError → Option String
  | malformed => none
  | wrongKind found wanted => some ("invalid type: " ++ found.text ++ ", expected " ++ wanted)
  | wrongCode code wanted =>
    some ("invalid value: integer `" ++ intText code ++ "`, expected " ++ wanted)
  | unknownName kind name => some ("unknown " ++ kind ++ " '" ++ name ++ "'")
  | missingMember name => some ("missing field `" ++ name ++ "`")
  | repeatedMember name => some ("duplicate field `" ++ name ++ "`")
  | tooShort length wanted =>
    some ("invalid length " ++ intText length ++ ", expected " ++ wanted)

/-- What a document is, as far as it is anything. -/
def Document.found? : Document → Option Found
  | missing | valueless => none
  | null => some .null
  | bool value => some (.bool value)
  | number value => some (.number value)
  | string text => some (.string text)
  | array _ _ => some .array
  | object _ _ => some .object

/-- The objection to a document where something else is wanted. A container is refused for its
opening bracket, whatever follows. -/
def Document.refuse (document : Document) (wanted : String) : ReadError :=
  match document.found? with
  | some found => .wrongKind found wanted
  | none => .malformed

end RecordFilter.Json
