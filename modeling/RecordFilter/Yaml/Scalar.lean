import RecordFilter.Json.Quoted

/-!
# Scalars of YAML

A scalar is plain or stands between single or double quotation marks. It may go on over several
lines: a line end inside it counts as a blank, and an empty line as a line end. Line ends are
newlines throughout; `unifyLines` makes them so.
-/

namespace RecordFilter.Yaml

/-- The characters that may stand in a text at all. -/
def isAllowed (c : Char) : Bool :=
  let n := c.toNat
  n == 0x9 || n == 0xA || n == 0xD || (0x20 ≤ n && n ≤ 0x7E) || n == 0x85 ||
    (0xA0 ≤ n && n ≤ 0xFFFD) || 0x10000 ≤ n

/-- Writes a newline for every line end. -/
def unifyLines : List Char → List Char
  | [] => []
  | '\r' :: '\n' :: cs => '\n' :: unifyLines cs
  | c :: cs =>
    (if c = '\r' || c = '\u0085' || c = '\u2028' || c = '\u2029' then '\n' else c) ::
      unifyLines cs

/-- A blank or a line end. -/
def isGap (c : Char) : Bool := c = ' ' || c = '\t' || c = '\n'

/-- Whether a text goes on with a blank or a line end, or ends. -/
def startsGap : List Char → Bool
  | [] => true
  | c :: _ => isGap c

/-- Whether a text goes on with a mark between documents. -/
def startsMarker (mark : Char) : List Char → Bool
  | a :: b :: c :: cs => a = mark && b = mark && c = mark && startsGap cs
  | _ => false

/-- Whether a line starts with a mark between documents. -/
def isBoundary (cs : List Char) : Bool := startsMarker '-' cs || startsMarker '.' cs

/-- Whether what follows a gap is a mark between documents at the start of its line. -/
def endsAtBoundary (gap rest : List Char) : Bool := gap.getLast? == some '\n' && isBoundary rest

/-- What a gap inside a scalar stands for: itself within a line, a blank for one line end, and one
line end less for several. -/
def foldGap (gap : List Char) : List Char :=
  match gap.count '\n' with
  | 0 => gap
  | 1 => [' ']
  | lines + 2 => List.replicate (lines + 1) '\n'

/-! ## Plain scalars -/

/-- The marks of flow collections. -/
def isFlowMark (c : Char) : Bool := c = ',' || c = '[' || c = ']' || c = '\x7b' || c = '\x7d'

/-- Splits off the characters up to a gap or a mark that ends a plain scalar. In a flow collection
a colon must not stand right before a mark. -/
def word? (flow : Bool) : List Char → Option (List Char × List Char)
  | [] => some ([], [])
  | c :: cs =>
    if isGap c then some ([], c :: cs)
    else if c = ':' && startsGap cs then some ([], c :: cs)
    else if flow && c = ':' && cs.head?.any (fun d => isFlowMark d || d = '?') then none
    else if flow && isFlowMark c then some ([], c :: cs)
    else (word? flow cs).map fun (word, rest) => (c :: word, rest)

/-- The column after some characters. -/
def columnAfter (column : Nat) (cs : List Char) : Nat :=
  cs.foldl (fun column c => if c = '\n' then 0 else column + 1) column

/-- Whether a gap indents a line by a tab in front of a column. -/
def hasEarlyTab (margin : Nat) (gap : List Char) : Bool :=
  go (gap.dropWhile (· != '\n')) 0
where
  /-- Looks for a tab from a column on. -/
  go : List Char → Nat → Bool
    | [], _ => false
    | c :: cs, column =>
      if c = '\n' then go cs 0
      else if c = '\t' && column < margin then true
      else go cs (column + 1)

/-- Reads on in a plain scalar after a gap: what the gap and the rest stand for, the gap after it,
and what follows. The lines of the scalar start at `margin` or later. -/
def plainFrom? (flow : Bool) (margin : Nat) :
    Nat → Nat → List Char → List Char → Option (List Char × List Char × List Char)
  | 0, _, _, _ => none
  | fuel + 1, column, gap, cs =>
    if column = 0 && isBoundary cs || cs.head? == some '#' then some ([], gap, cs)
    else match word? flow cs with
      | none => none
      | some (word, rest) =>
        if word.isEmpty then some ([], gap, cs)
        else
          let next := rest.takeWhile isGap
          let after := columnAfter (column + word.length) next
          if hasEarlyTab margin next then none
          else if next.isEmpty || !flow && after < margin then
            some (foldGap gap ++ word, next, rest.dropWhile isGap)
          else (plainFrom? flow margin fuel after next (rest.dropWhile isGap)).map
            fun (text, last, rest) => (foldGap gap ++ word ++ text, last, rest)

/-! ## Quoted scalars -/

/-- The character that a one-letter escape stands for. -/
def unescape? : Char → Option Char
  | '0' => some '\x00'
  | 'a' => some '\x07'
  | 'b' => some '\x08'
  | 't' => some '\t'
  | '\t' => some '\t'
  | 'n' => some '\n'
  | 'v' => some '\x0b'
  | 'f' => some '\x0c'
  | 'r' => some '\r'
  | 'e' => some '\x1b'
  | ' ' => some ' '
  | '"' => some '"'
  | '/' => some '/'
  | '\\' => some '\\'
  | 'N' => some '\u0085'
  | '_' => some '\u00a0'
  | 'L' => some '\u2028'
  | 'P' => some '\u2029'
  | _ => none

/-- How many hexadecimal digits follow an escape letter. -/
def hexWidth? : Char → Option Nat
  | 'x' => some 2
  | 'u' => some 4
  | 'U' => some 8
  | _ => none

/-- The character with a code point in hexadecimal digits. -/
def hexChar? (digits : List Char) : Option Char := do
  let values ← digits.mapM Json.hexValue?
  let n := values.foldl (fun n value => 16 * n + value) 0
  if n.isValidChar then return Char.ofNat n else none

/-- Reads a scalar in quotation marks after the opening one. -/
def quoted? (double : Bool) : Nat → List Char → Option (List Char × List Char)
  | 0, _ => none
  | _, [] => none
  | fuel + 1, c :: cs =>
    if isGap c then
      let gap := (c :: cs).takeWhile isGap
      let rest := cs.dropWhile isGap
      if endsAtBoundary gap rest then none
      else (quoted? double fuel rest).map fun (text, rest) => (foldGap gap ++ text, rest)
    else if double && c = '"' then some ([], cs)
    else if !double && c = '\'' then
      match cs with
      | '\'' :: cs => (quoted? double fuel cs).map fun (text, rest) => ('\'' :: text, rest)
      | cs => some ([], cs)
    else if double && c = '\\' then
      match cs with
      | [] => none
      | '\n' :: cs =>
        let gap := cs.takeWhile isGap
        let rest := cs.dropWhile isGap
        if endsAtBoundary ('\n' :: gap) rest then none
        else (quoted? double fuel rest).map fun (text, rest) =>
          (List.replicate (gap.count '\n') '\n' ++ text, rest)
      | e :: cs =>
        match hexWidth? e with
        | some width => do
          let c ← if cs.length < width then none else hexChar? (cs.take width)
          let (text, rest) ← quoted? double fuel (cs.drop width)
          return (c :: text, rest)
        | none => do
          let c ← unescape? e
          let (text, rest) ← quoted? double fuel cs
          return (c :: text, rest)
    else (quoted? double fuel cs).map fun (text, rest) => (c :: text, rest)

end RecordFilter.Yaml
