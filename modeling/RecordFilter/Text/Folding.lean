import RecordFilter.Text.LowerCase

/-!
# Folded text

Text is compared without case by lowering every character on both sides. A literal is folded once;
a field is folded while it is compared, without building its folded form. `compareFolded` and
`startsWithFolded` take the plain field and the folded literal. How a character is lowered is left
open, and is the mapping of `lowerCase` where nothing else is said.
-/

namespace RecordFilter.Text

/-- The characters of a text, each lowered. -/
def foldChars (cs : List Char) (lower : Char → List Char := lowerCase) : List Char :=
  cs.flatMap lower

/-- A text with every character lowered. -/
def foldCase (s : String) (lower : Char → List Char := lowerCase) : String :=
  String.ofList (foldChars s.toList lower)

@[simp] theorem foldChars_nil (lower : Char → List Char) : foldChars [] lower = [] := rfl

@[simp] theorem foldChars_cons (c : Char) (cs : List Char) (lower : Char → List Char) :
    foldChars (c :: cs) lower = lower c ++ foldChars cs lower := by
  simp [foldChars]

@[simp] theorem foldChars_append (a b : List Char) (lower : Char → List Char) :
    foldChars (a ++ b) lower = foldChars a lower ++ foldChars b lower := by
  simp [foldChars]

@[simp] theorem toList_foldCase (s : String) (lower : Char → List Char) :
    (foldCase s lower).toList = foldChars s.toList lower := by
  simp [foldCase]

/-- Compares a run of characters with the front of a text, and leaves an agreement to `rest`. -/
def compareRun : List Char → List Char → (List Char → Ordering) → Ordering
  | [], t, rest => rest t
  | _ :: _, [], _ => .gt
  | a :: run, b :: t, rest =>
    match compare a b with
    | .eq => compareRun run t rest
    | unequal => unequal

/-- Order by code point of a text, folded on the way, against a folded one. -/
def compareFolded (s t : List Char) (lower : Char → List Char := lowerCase) : Ordering :=
  match s, t with
  | [], [] => .eq
  | [], _ :: _ => .lt
  | c :: s, t => compareRun (lower c) t fun t => compareFolded s t lower

/-- Whether a text, folded on the way, equals a folded one. -/
def eqFolded (s t : List Char) (lower : Char → List Char := lowerCase) : Bool :=
  compareFolded s t lower == .eq

/-- Matches a run of characters against what is still wanted, and leaves the rest to `rest`. -/
def matchRun : List Char → List Char → (List Char → Bool) → Bool
  | _, [], _ => true
  | [], t, rest => rest t
  | a :: run, b :: t, rest => a == b && matchRun run t rest

/-- Whether a text, folded on the way, starts with a folded one. -/
def startsWithFolded (s t : List Char) (lower : Char → List Char := lowerCase) : Bool :=
  match s, t with
  | _, [] => true
  | [], _ :: _ => false
  | c :: s, t => matchRun (lower c) t fun t => startsWithFolded s t lower

/-- Whether the second text occurs in the first. -/
def hasInfix : List Char → List Char → Bool
  | [], t => t.isEmpty
  | c :: s, t => t.isPrefixOf (c :: s) || hasInfix s t

/-- Whether the first text ends with the second. -/
def hasSuffix (s t : List Char) : Bool := t.isSuffixOf s

theorem hasInfix_iff {s t : List Char} : hasInfix s t = true ↔ t <:+: s := by
  induction s with
  | nil => simp [hasInfix]
  | cons c s ih => simp [hasInfix, ih, List.infix_cons_iff]

end RecordFilter.Text
