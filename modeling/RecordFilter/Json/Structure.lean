import RecordFilter.Json.ReadError

/-!
# Coded values, lists and structures in JSON text

A coded value stands there by its code or by its name. A list is an array. A structure is an object,
with its members in any order and under any of their names, or an array of its members in their own
order. Members that the structure does not have are passed over; no member may be given twice.
Everything is read in the order of the text, so that the first error in the text is the one
reported.
-/

namespace RecordFilter.Json

/-- A reader of documents. -/
abbrev Reader (α : Type) := Document → Except ReadError α

/-- Reads a whole text. -/
def Reader.ofText {α : Type} (read : Reader α) (text : String) : Except ReadError α :=
  match Document.read text with
  | (document, isJson) =>
    match read document with
    | .error error => .error error
    | .ok value => if isJson then .ok value else .error .malformed

/-- Reads one of several things of a kind, by its code or by its name. A code has one byte. -/
def readCoded {α : Type} (kind wanted : String) (ofCode? : Nat → Option α)
    (ofName? : String → Option α) : Reader α
  | .number (.int code) =>
    match (Number.int code).toByte?.bind ofCode? with
    | some value => .ok value
    | none => .error (.wrongCode code wanted)
  | .string name =>
    match ofName? name with
    | some value => .ok value
    | none => .error (.unknownName kind name)
  | other => .error (other.refuse wanted)

/-- Reads documents one after the other. -/
def readEach {α : Type} (read : Reader α) : List Document → Except ReadError (List α)
  | [] => .ok []
  | document :: documents =>
    match read document with
    | .error error => .error error
    | .ok value =>
      match readEach read documents with
      | .error error => .error error
      | .ok values => .ok (value :: values)

/-- Reads an array whose elements are read alike. -/
def readList {α : Type} (wanted : String) (read : Reader α) : Reader (List α)
  | .array elements closed =>
    match readEach read elements with
    | .error error => .error error
    | .ok values => if closed then .ok values else .error .malformed
  | other => .error (other.refuse wanted)

/-- A member of a structure, where `π` holds the members read so far. -/
structure Member (π : Type) where
  name : String
  otherNames : List String
  /-- Whether the member has been read. -/
  isGiven : π → Bool
  /-- Reads the member. -/
  read : Document → π → Except ReadError π

/-- Whether a key names the member. -/
def Member.answersTo {π : Type} (m : Member π) (key : String) : Bool :=
  key == m.name || m.otherNames.contains key

/-- A structure with its members in order. -/
structure Shape (π α : Type) where
  title : String
  members : List (Member π)
  /-- No member read. -/
  start : π
  /-- The structure with these members, or the name of the first one that it lacks. -/
  finish : π → Except String α

/-- Reads the members of an object. A key without a value is malformed unless it is passed over. -/
def readMembers {π : Type} (members : List (Member π)) :
    π → List (Option String × Document) → Except ReadError π
  | parts, [] => .ok parts
  | _, (none, _) :: _ => .error .malformed
  | parts, (some key, document) :: rest =>
    match members.find? (·.answersTo key) with
    | none => readMembers members parts rest
    | some m =>
      if m.isGiven parts then .error (.repeatedMember m.name)
      else match m.read document parts with
        | .error error => .error error
        | .ok parts => readMembers members parts rest

/-- Reads the elements of an array as members, of which the last ones may be left out. -/
def readElements {π : Type} : List (Member π) → π → List Document → Except ReadError π
  | _, parts, [] => .ok parts
  | [], _, _ :: _ => .error .malformed
  | m :: members, parts, document :: documents =>
    match m.read document parts with
    | .error error => .error error
    | .ok parts => readElements members parts documents

/-- A structure as an array, in words. -/
def Shape.arrayTitle {π α : Type} (s : Shape π α) : String :=
  s.title ++ " with " ++ intText s.members.length ++ " elements"

/-- Reads a structure. -/
def Shape.read {π α : Type} (s : Shape π α) : Reader α
  | .object members closed =>
    match readMembers s.members s.start members with
    | .error error => .error error
    | .ok parts =>
      if closed then (s.finish parts).mapError .missingMember else .error .malformed
  | .array elements closed =>
    match readElements s.members s.start elements with
    | .error error => .error error
    | .ok parts =>
      if closed then (s.finish parts).mapError fun _ => .tooShort elements.length s.arrayTitle
      else .error .malformed
  | other => .error (other.refuse s.title)

end RecordFilter.Json
