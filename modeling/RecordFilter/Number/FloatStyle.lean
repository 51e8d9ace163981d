import RecordFilter.Number.Shortest

/-!
# Floating-point numbers, written

All texts of a number show the shortest decimal that reads back; they differ in where positional
notation ends, in how whole numbers look and in the words for the special values. Such a choice is
a `FloatStyle`.
-/

namespace RecordFilter

/-- How a floating-point number is written. -/
structure FloatStyle where
  /-- Which of two equally near decimals is shown. -/
  tie : Tie
  /-- The exponents of the leading digit, from the first up to but not including the second, that
  are written positionally; all of them if absent. -/
  positional : Option (Int × Int)
  /-- What follows a positional number that is whole. -/
  wholeEnd : String
  /-- What stands before a positive exponent. -/
  exponentPlus : String

namespace FloatStyle

/-- Digits around a point: the digits, then the exponent of the last one. -/
def positionalChars (s : FloatStyle) (digits : List Char) (exponent : Int) : List Char :=
  match exponent with
  | .ofNat e => digits ++ List.replicate e '0' ++ s.wholeEnd.toList
  | .negSucc e =>
    let places := e + 1
    if places < digits.length then
      digits.take (digits.length - places) ++ '.' :: digits.drop (digits.length - places)
    else '0' :: '.' :: List.replicate (places - digits.length) '0' ++ digits

/-- One digit before the point, and an exponent. -/
def scientificChars (s : FloatStyle) (digits : List Char) (exponent : Int) : List Char :=
  let leading : Int := digits.length - 1 + exponent
  let mantissa := match digits with
    | first :: second :: rest => first :: '.' :: second :: rest
    | short => short
  let sign := if leading < 0 then [] else s.exponentPlus.toList
  mantissa ++ 'e' :: sign ++ intChars leading

/-- A decimal without its sign. -/
def magnitudeChars (s : FloatStyle) (d : Decimal) : List Char :=
  let digits := Nat.toDigits 10 d.coefficient
  let leading : Int := digits.length - 1 + d.exponent
  match s.positional with
  | none => s.positionalChars digits d.exponent
  | some (first, last) =>
    if first ≤ leading && leading < last then s.positionalChars digits d.exponent
    else s.scientificChars digits d.exponent

/-- The text of a number. -/
def render (s : FloatStyle) : Binary64 → List Char
  | .nan => "NaN".toList
  | .infinite negative => signed negative "inf".toList
  | .finite negative units _ =>
    signed negative <|
      if units = 0 then '0' :: s.wholeEnd.toList
      else s.magnitudeChars (Binary64.shortest s.tie negative units)
where
  /-- A minus in front of a negative number. -/
  signed (negative : Bool) (cs : List Char) : List Char := if negative then '-' :: cs else cs

/-- Plain text: always positional, whole numbers without a point. -/
def plain : FloatStyle := ⟨.larger, none, "", ""⟩

/-- Text that shows the type: whole numbers keep a point, very large and very small ones an
exponent. -/
def inspected : FloatStyle := ⟨.larger, some (-4, 16), ".0", ""⟩

/-- JSON numbers: as `inspected`, but positional down to one place further and with a sign on
every exponent. -/
def json : FloatStyle := ⟨.even, some (-5, 16), ".0", "+"⟩

end FloatStyle

end RecordFilter
