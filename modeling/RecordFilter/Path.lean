import RecordFilter.Text.Blank
import RecordFilter.Error

/-!
# Field paths

A path names a field of a record step by step. Its segments are trimmed and otherwise kept as
written; a blank segment is kept too, so that it can be reported. As text the segments stand
between dots, and a blank text is the path without segments.
-/

namespace RecordFilter

/-- Trimmed segments, from the record inwards. -/
structure Path where
  segments : List String
  trimmed : ∀ s ∈ segments, Text.trim s = s
deriving DecidableEq

namespace Path

/-- The parts of a text between dots. -/
def splitDots : List Char → List (List Char)
  | [] => [[]]
  | '.' :: cs => [] :: splitDots cs
  | c :: cs =>
    match splitDots cs with
    | part :: parts => (c :: part) :: parts
    | [] => [[c]]

/-- Parts with a dot between each two. -/
def joinDots : List (List Char) → List Char
  | [] => []
  | [part] => part
  | part :: parts => part ++ '.' :: joinDots parts

/-- The path with these segments, trimmed. -/
def ofSegments (segments : List String) : Path where
  segments := segments.map Text.trim
  trimmed := by simp

/-- The path that a dotted text denotes. -/
def ofText (text : String) : Path :=
  let cs := Text.trimChars text.toList
  if cs.isEmpty then ofSegments [] else ofSegments ((splitDots cs).map String.ofList)

/-- The path one segment longer. -/
def child (p : Path) (segment : String) : Path where
  segments := p.segments ++ [Text.trim segment]
  trimmed s h := by
    rcases List.mem_append.1 h with h | h
    · exact p.trimmed s h
    · rw [List.mem_singleton.1 h, Text.trim_trim]

/-- The segments between dots. -/
def text (p : Path) : String := String.ofList (joinDots (p.segments.map String.toList))

/-- The number of segments. -/
def length (p : Path) : Nat := p.segments.length

/-- Whether there are no segments. -/
def isEmpty (p : Path) : Bool := p.segments.isEmpty

/-- The place of the first blank segment. -/
def blankSegment? (p : Path) : Option Nat := p.segments.findIdx? String.isEmpty

/-- Whether the path can name anything: it has segments and none is blank. -/
def isNaming (p : Path) : Bool := !p.isEmpty && p.blankSegment?.isNone

/-- A path that can name nothing is an unknown field of the type it starts from. -/
def validate (p : Path) (typeName : String) : Except FilterError Unit :=
  if p.isNaming then .ok () else .error (.unknownField "" typeName)

end Path

end RecordFilter
