/-!
# Texts in order

Texts are ordered by their code points, character by character, a text before its extensions.
-/

namespace RecordFilter.Text

/-- The order of lists of characters by code point. -/
def compareChars : List Char → List Char → Ordering
  | [], [] => .eq
  | [], _ :: _ => .lt
  | _ :: _, [] => .gt
  | a :: as, b :: bs =>
    match compare a b with
    | .eq => compareChars as bs
    | unequal => unequal

/-- The order of texts by code point. -/
def compareText (a b : String) : Ordering := compareChars a.toList b.toList

end RecordFilter.Text
