import RecordFilter.Json.Number
import RecordFilter.Json.Quoted

/-!
# JSON text, read as far as it goes

A text is read into a document also where it is not JSON: reading stops at the first character that
cannot stand where it does, and the containers that are open there stay open. Whoever looks for a
meaning in the document meets its parts in the order of the text, so the first thing wrong with a
text can be found, be it malformed or merely unexpected.

The reader is a loop over the open containers (`Frame`) and what may come next (`Expected`).
-/

namespace RecordFilter.Json

/-- What is read from a text. -/
inductive Document where
  /-- Nothing: the text ends or goes wrong where a value should start. -/
  | missing
  /-- A well-formed number or string that has no value. -/
  | valueless
  | null
  | bool (value : Bool)
  | number (value : Number)
  | string (text : String)
  /-- The elements that were read, and whether the array was closed after them. -/
  | array (elements : List Document) (closed : Bool)
  /-- The members that were read, and whether the object was closed after them. A key may be
  valueless. -/
  | object (members : List (Option String × Document)) (closed : Bool)

/-- The blanks between the tokens of JSON. -/
def isSpace (c : Char) : Bool := c = ' ' || c = '\n' || c = '\t' || c = '\r'

namespace Document

/-- An open container with what was read of it, last part first. -/
inductive Frame where
  | array (elements : List Document)
  | object (members : List (Option String × Document))
  /-- An object in front of the value of a key. -/
  | member (members : List (Option String × Document)) (key : Option String)

/-- What may come next. -/
inductive Expected where
  | value
  /-- A value, or the end of an array without elements. -/
  | firstElement
  | key
  /-- A key, or the end of an object without members. -/
  | firstKey
  | colon
  /-- A comma, or the end of the innermost container. -/
  | separator
deriving DecidableEq

/-- Leaves the open containers open; the innermost one may have a last part. -/
def leaveOpen : List Frame → Option Document → Document
  | [], last => last.getD missing
  | .array elements :: frames, last =>
    leaveOpen frames (some (.array (last.toList ++ elements).reverse false))
  | .object members :: frames, _ => leaveOpen frames (some (.object members.reverse false))
  | .member members key :: frames, last =>
    leaveOpen frames (some (.object ((key, last.getD missing) :: members).reverse false))

/-- Where reading stands after a token. -/
inductive Progress where
  | reading (frames : List Frame) (expected : Expected) (rest : List Char)
  | finished (document : Document) (rest : List Char)
  | stuck

/-- Hands a value to the innermost container. -/
def deliver (document : Document) (rest : List Char) : List Frame → Progress
  | [] => .finished document rest
  | .array elements :: frames => .reading (.array (document :: elements) :: frames) .separator rest
  | .member members key :: frames =>
    .reading (.object ((key, document) :: members) :: frames) .separator rest
  | .object _ :: _ => .stuck

/-- Reads the rest of a word that stands for a value. -/
def readWord (word : List Char) (document : Document) (frames : List Frame) (cs : List Char) :
    Progress :=
  if word.isPrefixOf cs then deliver document (cs.drop word.length) frames else .stuck

/-- Reads the start of a value, or all of it if it is no container. -/
def readValue (frames : List Frame) (c : Char) (cs : List Char) : Progress :=
  if c = '[' then .reading (.array [] :: frames) .firstElement cs
  else if c = '{' then .reading (.object [] :: frames) .firstKey cs
  else if c = '"' then
    match unquote cs with
    | none => .stuck
    | some (none, rest) => deliver valueless rest frames
    | some (some text, rest) => deliver (string text) rest frames
  else if c = 'n' then readWord ['u', 'l', 'l'] null frames cs
  else if c = 't' then readWord ['r', 'u', 'e'] (bool true) frames cs
  else if c = 'f' then readWord ['a', 'l', 's', 'e'] (bool false) frames cs
  else
    match NumberText.read (c :: cs) with
    | none => .stuck
    | some (t, rest) =>
      match t.value? with
      | none => deliver valueless rest frames
      | some value => deliver (number value) rest frames

/-- Reads a key. -/
def readKey (frames : List Frame) (c : Char) (cs : List Char) : Progress :=
  match frames with
  | .object members :: frames =>
    if c = '"' then
      match unquote cs with
      | none => .stuck
      | some (key, rest) => .reading (.member members key :: frames) .colon rest
    else .stuck
  | _ => .stuck

/-- Reads one token, which starts with `c`. -/
def readToken (frames : List Frame) (expected : Expected) (c : Char) (cs : List Char) : Progress :=
  match expected with
  | .value => readValue frames c cs
  | .firstElement =>
    if c = ']' then deliver (.array [] true) cs frames.tail else readValue frames c cs
  | .key => readKey frames c cs
  | .firstKey => if c = '}' then deliver (.object [] true) cs frames.tail else readKey frames c cs
  | .colon => if c = ':' then .reading frames .value cs else .stuck
  | .separator =>
    match frames with
    | .array elements :: outer =>
      if c = ',' then .reading frames .value cs
      else if c = ']' then deliver (.array elements.reverse true) cs outer
      else .stuck
    | .object members :: outer =>
      if c = ',' then .reading frames .key cs
      else if c = '}' then deliver (.object members.reverse true) cs outer
      else .stuck
    | _ => .stuck

/-! ## A token takes up part of the text -/

/-- What is left to be read. -/
def Progress.rest : Progress → List Char
  | reading _ _ rest => rest
  | finished _ rest => rest
  | stuck => []

theorem rest_deliver (document : Document) (rest : List Char) (frames : List Frame) :
    (deliver document rest frames).rest.length ≤ rest.length := by
  unfold deliver
  split <;> simp [Progress.rest]

theorem rest_readWord (word : List Char) (document : Document) (frames : List Frame)
    (cs : List Char) : (readWord word document frames cs).rest.length ≤ cs.length := by
  unfold readWord
  split
  · exact Nat.le_trans (rest_deliver ..) (by simp)
  · simp [Progress.rest]

theorem rest_readValue (frames : List Frame) (c : Char) (cs : List Char) :
    (readValue frames c cs).rest.length ≤ cs.length := by
  unfold readValue
  split
  · simp [Progress.rest]
  split
  · simp [Progress.rest]
  split
  · split
    · simp [Progress.rest]
    · next h => exact Nat.le_trans (rest_deliver ..) (Nat.le_of_lt (length_unquote h))
    · next h => exact Nat.le_trans (rest_deliver ..) (Nat.le_of_lt (length_unquote h))
  split
  · exact rest_readWord ..
  split
  · exact rest_readWord ..
  split
  · exact rest_readWord ..
  split
  · simp [Progress.rest]
  · next t rest h =>
    have hlt := NumberText.length_read h
    simp only [List.length_cons] at hlt
    split <;> exact Nat.le_trans (rest_deliver ..) (by omega)

theorem rest_readKey (frames : List Frame) (c : Char) (cs : List Char) :
    (readKey frames c cs).rest.length ≤ cs.length := by
  unfold readKey
  split
  · split
    · split
      · simp [Progress.rest]
      · next h => exact Nat.le_of_lt (length_unquote h)
    · simp [Progress.rest]
  · simp [Progress.rest]

theorem rest_readToken (frames : List Frame) (expected : Expected) (c : Char) (cs : List Char) :
    (readToken frames expected c cs).rest.length ≤ cs.length := by
  unfold readToken
  split
  · exact rest_readValue ..
  · split
    · exact rest_deliver ..
    · exact rest_readValue ..
  · exact rest_readKey ..
  · split
    · exact rest_deliver ..
    · exact rest_readKey ..
  · split <;> simp [Progress.rest]
  · split
    · split
      · simp [Progress.rest]
      · split
        · exact rest_deliver ..
        · simp [Progress.rest]
    · split
      · simp [Progress.rest]
      · split
        · exact rest_deliver ..
        · simp [Progress.rest]
    · simp [Progress.rest]

/-! ## The loop -/

/-- Reads on from open containers. The second result tells whether the text is JSON. -/
def readOn (frames : List Frame) (expected : Expected) : List Char → Document × Bool
  | [] => (leaveOpen frames none, false)
  | c :: cs =>
    if isSpace c then readOn frames expected cs
    else
      match _h : readToken frames expected c cs with
      | .stuck => (leaveOpen frames none, false)
      | .finished document rest => (document, rest.all isSpace)
      | .reading frames' expected' rest => readOn frames' expected' rest
termination_by cs => cs.length
decreasing_by
  · simp
  · have := rest_readToken frames expected c cs
    rw [_h] at this
    simpa [Progress.rest, Nat.lt_succ_iff] using this

/-- Reads a text. The second result tells whether it is JSON, with nothing after the value. -/
def read (text : String) : Document × Bool := readOn [] .value text.toList

end Document

end RecordFilter.Json
