import RecordFilter.Yaml.Token

/-!
# YAML documents

A document is a tree of scalars, sequences and mappings. Where nothing stands for a node, it is the
empty plain scalar. A text holds at most one document here; a text of blanks and comments holds
none.

The readers take fuel, a unit for every call of a reader inside another one. At most four of them
are entered before one takes a token away, so `Node.ofText?` provides for four a token.
-/

namespace RecordFilter.Yaml

/-- A node of a document. -/
inductive Node where
  | scalar (plain : Bool) (text : String)
  | sequence (items : List Node)
  | mapping (entries : List (Node × Node))

namespace Node

/-- What stands where nothing is written. -/
def empty : Node := scalar true ""

/-- Whether a node is left out before a token. -/
def isLeftOut (stops : List Token) : List Token → Bool
  | [] => true
  | token :: _ => stops.contains token

mutual

/-- Reads a node. In a block mapping a sequence need not be indented. -/
def read? (block indentless : Bool) : Nat → List Token → Option (Node × List Token)
  | 0, _ => none
  | fuel + 1, tokens =>
    match tokens with
    | .scalar plain text :: tokens => some (scalar plain text, tokens)
    | .flowSequenceStart :: .flowSequenceEnd :: tokens => some (sequence [], tokens)
    | .flowSequenceStart :: tokens =>
      (flowItems? fuel tokens).map fun (items, tokens) => (sequence items, tokens)
    | .flowMappingStart :: .flowMappingEnd :: tokens => some (mapping [], tokens)
    | .flowMappingStart :: tokens =>
      (flowEntries? fuel tokens).map fun (entries, tokens) => (mapping entries, tokens)
    | .blockSequenceStart :: tokens =>
      if block then
        match blockItems? fuel tokens with
        | some (items, .blockEnd :: tokens) => some (sequence items, tokens)
        | _ => none
      else none
    | .blockMappingStart :: tokens =>
      if block then
        (blockEntries? fuel tokens).map fun (entries, tokens) => (mapping entries, tokens)
      else none
    | .blockEntry :: tokens =>
      if indentless then
        (blockItems? fuel (.blockEntry :: tokens)).map fun (items, tokens) =>
          (sequence items, tokens)
      else none
    | _ => none

/-- Reads a node that may be left out before some tokens. -/
def readOr? (block indentless : Bool) (stops : List Token) :
    Nat → List Token → Option (Node × List Token)
  | 0, _ => none
  | fuel + 1, tokens =>
    if isLeftOut stops tokens then some (empty, tokens) else read? block indentless fuel tokens

/-- Reads the items of a block sequence, each after its hyphen. -/
def blockItems? : Nat → List Token → Option (List Node × List Token)
  | 0, _ => none
  | fuel + 1, .blockEntry :: tokens =>
    match readOr? true false [.blockEntry, .key, .value, .blockEnd] fuel tokens with
    | none => none
    | some (item, tokens) =>
      (blockItems? fuel tokens).map fun (items, tokens) => (item :: items, tokens)
  | _, tokens => some ([], tokens)

/-- Reads the entries of a block mapping and its end. -/
def blockEntries? : Nat → List Token → Option (List (Node × Node) × List Token)
  | 0, _ => none
  | _, .blockEnd :: tokens => some ([], tokens)
  | fuel + 1, .key :: tokens =>
    match readOr? true true [.key, .value, .blockEnd] fuel tokens with
    | none => none
    | some (key, tokens) =>
      match value? true [.key, .value, .blockEnd] fuel tokens with
      | none => none
      | some (value, tokens) =>
        (blockEntries? fuel tokens).map fun (entries, tokens) => ((key, value) :: entries, tokens)
  | _, _ => none

/-- Reads the value behind a key, if there is a colon. -/
def value? (block : Bool) (stops : List Token) : Nat → List Token → Option (Node × List Token)
  | 0, _ => none
  | fuel + 1, .value :: tokens => readOr? block block stops fuel tokens
  | _, tokens => some (empty, tokens)

/-- Reads one or more items of a flow sequence and its end. An item may be a single entry of a
mapping. -/
def flowItems? : Nat → List Token → Option (List Node × List Token)
  | 0, _ => none
  | fuel + 1, tokens =>
    match flowItem? fuel tokens with
    | some (item, .flowSequenceEnd :: tokens) => some ([item], tokens)
    | some (item, .flowEntry :: .flowSequenceEnd :: tokens) => some ([item], tokens)
    | some (item, .flowEntry :: tokens) =>
      (flowItems? fuel tokens).map fun (items, tokens) => (item :: items, tokens)
    | _ => none

/-- Reads an item of a flow sequence. A key that is left out takes the place of the token at which
it is missed, so that token does not count: the sequence goes on after it. -/
def flowItem? : Nat → List Token → Option (Node × List Token)
  | 0, _ => none
  | fuel + 1, .key :: tokens =>
    let leftOut := isLeftOut [.value, .flowEntry, .flowSequenceEnd] tokens
    match if leftOut then some (empty, tokens.tail) else read? false false fuel tokens with
    | none => none
    | some (key, tokens) =>
      (value? false [.flowEntry, .flowSequenceEnd] fuel tokens).map fun (value, tokens) =>
        (mapping [(key, value)], tokens)
  | fuel + 1, tokens => read? false false fuel tokens

/-- Reads one or more entries of a flow mapping and its end. -/
def flowEntries? : Nat → List Token → Option (List (Node × Node) × List Token)
  | 0, _ => none
  | fuel + 1, tokens =>
    match flowEntry? fuel tokens with
    | some (entry, .flowMappingEnd :: tokens) => some ([entry], tokens)
    | some (entry, .flowEntry :: .flowMappingEnd :: tokens) => some ([entry], tokens)
    | some (entry, .flowEntry :: tokens) =>
      (flowEntries? fuel tokens).map fun (entries, tokens) => (entry :: entries, tokens)
    | _ => none

/-- Reads an entry of a flow mapping. -/
def flowEntry? : Nat → List Token → Option ((Node × Node) × List Token)
  | 0, _ => none
  | fuel + 1, .key :: tokens =>
    match readOr? false false [.value, .flowEntry, .flowMappingEnd] fuel tokens with
    | none => none
    | some (key, tokens) =>
      (value? false [.flowEntry, .flowMappingEnd] fuel tokens).map fun (value, tokens) =>
        ((key, value), tokens)
  | fuel + 1, tokens => (read? false false fuel tokens).map fun (key, tokens) =>
    ((key, empty), tokens)

end

/-- Reads the node of a document. -/
def ofDocument? (fuel : Nat) : List Token → Option (Node × List Token)
  | .documentStart :: tokens =>
    readOr? true false [.documentStart, .documentEnd] fuel tokens
  | tokens => read? true false fuel tokens

/-- The document that a text holds, if it holds one. There is no result if the text is not YAML or
holds several documents. -/
def ofText? (text : String) : Option (Option Node) := do
  let tokens ← tokens? text
  if tokens.isEmpty then return none
  else
    let (node, rest) ← ofDocument? (4 * tokens.length + 4) tokens
    if rest.all (· == .documentEnd) then return some node else none

end Node

end RecordFilter.Yaml
