import RecordFilter.Yaml.Scalar

/-!
# The tokens of a YAML text

Block structure is shown by indentation; in the token list it is shown by brackets, the tokens
`blockMappingStart`, `blockSequenceStart` and `blockEnd`. That a scalar or a flow collection is the
key of a mapping is known only at the colon behind it. Until then it is remembered as a possible
key, and at the colon the tokens that belong in front of it are put there. A possible key ends with
its line; where nothing but a key can stand, that is an error.

Anchors, tags, directives and block scalars are not part of the language that is read here.
-/

namespace RecordFilter.Yaml

/-- A token. -/
inductive Token where
  | documentStart
  | documentEnd
  | blockMappingStart
  | blockSequenceStart
  | blockEnd
  | flowMappingStart
  | flowMappingEnd
  | flowSequenceStart
  | flowSequenceEnd
  | blockEntry
  | flowEntry
  | key
  | value
  | scalar (plain : Bool) (text : String)
deriving DecidableEq

/-- A place in a text. -/
structure Place where
  line : Nat
  column : Nat
  /-- The number of bytes in front, of which a line end takes one. -/
  index : Nat

/-- The place behind some characters. -/
def Place.after (p : Place) (cs : List Char) : Place :=
  cs.foldl (fun p c => if c = '\n' then ⟨p.line + 1, 0, p.index + 1⟩
    else ⟨p.line, p.column + 1, p.index + c.utf8Size⟩) p

/-- What may turn out to be a key. -/
structure PossibleKey where
  place : Place
  /-- The number of tokens in front of it. -/
  tokens : Nat
  /-- Whether only a key can stand there. -/
  required : Bool

/-- Where reading stands. -/
structure Lexer where
  rest : List Char
  place : Place
  /-- The column of the innermost block collection, -1 outside of all. -/
  indent : Int
  /-- The columns of the block collections around it. -/
  outer : List Int
  /-- Whether a key may start here. -/
  keyAllowed : Bool
  /-- The possible keys of the flow collections around, the innermost first, and of the block. -/
  keys : List (Option PossibleKey)
  /-- The tokens read, the last one first. -/
  tokens : List Token

namespace Lexer

/-- The start of a text. -/
def start (cs : List Char) : Lexer := ⟨cs, ⟨0, 0, 0⟩, -1, [], true, [none], []⟩

/-- Whether a flow collection is open. -/
def inFlow (s : Lexer) : Bool := 1 < s.keys.length

/-- Goes on behind some characters. -/
def skip (s : Lexer) (n : Nat) : Lexer :=
  { s with rest := s.rest.drop n, place := s.place.after (s.rest.take n) }

/-- Adds a token. -/
def push (s : Lexer) (token : Token) : Lexer := { s with tokens := token :: s.tokens }

/-- Adds tokens in front of which there are `n`. -/
def insert (s : Lexer) (n : Nat) (tokens : List Token) : Lexer :=
  let behind := s.tokens.length - n
  { s with tokens := s.tokens.take behind ++ tokens.reverse ++ s.tokens.drop behind }

/-- Skips blanks, comments and line ends. A tab must not indent what may be a key. -/
def skipGap (s : Lexer) : Lexer := go s.rest s.place s.keyAllowed false
where
  /-- Skips, also in a comment. -/
  go : List Char → Place → Bool → Bool → Lexer
    | [], place, keyAllowed, _ => { s with rest := [], place, keyAllowed }
    | c :: cs, place, keyAllowed, inComment =>
      if c = '\n' then go cs (place.after [c]) (keyAllowed || !s.inFlow) false
      else if inComment || c = ' ' || (c = '\t' && (s.inFlow || !keyAllowed)) ||
          (c = '\ufeff' && place.column = 0) then
        go cs (place.after [c]) keyAllowed inComment
      else if c = '#' then go cs (place.after [c]) keyAllowed true
      else { s with rest := c :: cs, place, keyAllowed }

/-- Gives up the possible keys that lie on an earlier line or more than 1024 bytes back. -/
def dropOldKeys (s : Lexer) : Option Lexer := do
  let keys ← s.keys.mapM fun key =>
    match key with
    | none => some none
    | some k =>
      if k.place.line < s.place.line || k.place.index + 1024 < s.place.index then
        if k.required then none else some none
      else some (some k)
  return { s with keys }

/-- Gives up the innermost possible key. -/
def dropKey (s : Lexer) : Option Lexer :=
  match s.keys with
  | some k :: keys => if k.required then none else some { s with keys := none :: keys }
  | _ => some s

/-- Remembers that a key may start here. -/
def markKey (s : Lexer) : Option Lexer := do
  if s.keyAllowed then
    let s ← s.dropKey
    let required := !s.inFlow && s.indent == s.place.column
    return { s with keys := some ⟨s.place, s.tokens.length, required⟩ :: s.keys.tail }
  else return s

/-- Closes the block collections that are indented further than a column. -/
def closeBlocks (s : Lexer) (column : Int) : Lexer :=
  if s.inFlow then s else go s.indent s.outer s.tokens
where
  /-- Closes one after the other. -/
  go : Int → List Int → List Token → Lexer
    | indent, [], tokens => { s with indent, outer := [], tokens }
    | indent, next :: outer, tokens =>
      if column < indent then go next outer (.blockEnd :: tokens)
      else { s with indent, outer := next :: outer, tokens }

/-- Opens a block collection at a column, in front of which there are `n` tokens, unless one is
open there. -/
def openBlock (s : Lexer) (column n : Nat) (token : Token) : Lexer :=
  if !s.inFlow && s.indent < column then
    { s.insert n [token] with indent := column, outer := s.indent :: s.outer }
  else s

/-- A mark between documents. -/
def boundary (s : Lexer) (token : Token) : Option Lexer := do
  let s ← (s.closeBlocks (-1)).dropKey
  return { (s.push token).skip 3 with keyAllowed := false }

/-- The start of a flow collection. -/
def openFlow (s : Lexer) (token : Token) : Option Lexer := do
  let s ← s.markKey
  return { (s.push token).skip 1 with keys := none :: s.keys, keyAllowed := true }

/-- The end of a flow collection. -/
def closeFlow (s : Lexer) (token : Token) : Option Lexer := do
  let s ← s.dropKey
  let keys := if s.inFlow then s.keys.tail else s.keys
  return { (s.push token).skip 1 with keys, keyAllowed := false }

/-- A comma in a flow collection. -/
def flowComma (s : Lexer) : Option Lexer := do
  let s ← s.dropKey
  return { (s.push .flowEntry).skip 1 with keyAllowed := true }

/-- The hyphen of a block sequence. -/
def hyphen (s : Lexer) : Option Lexer := do
  if !s.inFlow && !s.keyAllowed then none
  else
    let s ← (s.openBlock s.place.column s.tokens.length .blockSequenceStart).dropKey
    return { (s.push .blockEntry).skip 1 with keyAllowed := true }

/-- A question mark in front of a key. -/
def questionMark (s : Lexer) : Option Lexer := do
  if !s.inFlow && !s.keyAllowed then none
  else
    let s ← (s.openBlock s.place.column s.tokens.length .blockMappingStart).dropKey
    return { (s.push .key).skip 1 with keyAllowed := !s.inFlow }

/-- The colon behind a key. -/
def colon (s : Lexer) : Option Lexer :=
  match s.keys with
  | some k :: keys =>
    let s := { s with keys := none :: keys }
    let s := (s.insert k.tokens [.key]).openBlock k.place.column k.tokens .blockMappingStart
    some { (s.push .value).skip 1 with keyAllowed := false }
  | _ =>
    if !s.inFlow && !s.keyAllowed then none
    else
      let s := s.openBlock s.place.column s.tokens.length .blockMappingStart
      some { (s.push .value).skip 1 with keyAllowed := !s.inFlow }

/-- A scalar in quotation marks. -/
def quotedScalar (s : Lexer) (double : Bool) : Option Lexer := do
  let s ← s.markKey
  let (text, rest) ← quoted? double s.rest.length s.rest.tail
  let s := s.push (.scalar false (String.ofList text))
  return { s.skip (s.rest.length - rest.length) with keyAllowed := false }

/-- A plain scalar, with the gap behind it. -/
def plainScalar (s : Lexer) : Option Lexer := do
  let s ← s.markKey
  let margin := (s.indent + 1).toNat
  let (text, gap, rest) ← plainFrom? s.inFlow margin s.rest.length s.place.column [] s.rest
  let s := s.push (.scalar true (String.ofList text))
  return { s.skip (s.rest.length - rest.length) with keyAllowed := gap.contains '\n' }

/-- Whether a plain scalar may start with a character in front of a text. -/
def startsPlain (flow : Bool) (c : Char) (cs : List Char) : Bool :=
  if c = '-' then !startsGap cs
  else if c = '?' || c = ':' then !flow && !startsGap cs
  else !isGap c && !",[]\x7b\x7d#&*!|>'\"%@\x60".toList.contains c

/-- Reads the token that starts with a character. -/
def token (s : Lexer) (c : Char) (cs : List Char) : Option Lexer :=
  if s.place.column = 0 && startsMarker '-' (c :: cs) then s.boundary .documentStart
  else if s.place.column = 0 && startsMarker '.' (c :: cs) then s.boundary .documentEnd
  else if c = '[' then s.openFlow .flowSequenceStart
  else if c = '\x7b' then s.openFlow .flowMappingStart
  else if c = ']' then s.closeFlow .flowSequenceEnd
  else if c = '\x7d' then s.closeFlow .flowMappingEnd
  else if c = ',' then s.flowComma
  else if c = '-' && startsGap cs then s.hyphen
  else if c = '?' && (s.inFlow || startsGap cs) then s.questionMark
  else if c = ':' && (s.inFlow || startsGap cs) then s.colon
  else if c = '\'' then s.quotedScalar false
  else if c = '"' then s.quotedScalar true
  else if startsPlain s.inFlow c cs then s.plainScalar
  else none

/-- Reads tokens to the end of the text. -/
def run : Nat → Lexer → Option (List Token)
  | 0, _ => none
  | fuel + 1, s => do
    let s ← s.skipGap.dropOldKeys
    let s := s.closeBlocks s.place.column
    match s.rest with
    | [] =>
      let s ← (s.closeBlocks (-1)).dropKey
      return s.tokens.reverse
    | c :: cs =>
      let s ← s.token c cs
      run fuel s

end Lexer

/-- The tokens of a text. Every token takes up at least one character. -/
def tokens? (text : String) : Option (List Token) :=
  if text.toList.all isAllowed then
    let cs := unifyLines text.toList
    (Lexer.start cs).run (cs.length + 1)
  else none

end RecordFilter.Yaml
