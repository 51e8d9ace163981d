import RecordFilter.Number.Binary64

/-!
# Decimal text of a floating-point number, read

A decimal is a sign, a coefficient and a power of ten. Its text is digits with a point before,
between, after or nowhere, at least one digit, and optionally an exponent. Reading rounds the exact
decimal once, so the result is the binary64 number nearest to it. The words `inf`, `infinity` and
`nan` are read in any case.
-/

namespace RecordFilter

-- Powers are the repeated products of core, whatever else is imported beside this module.
attribute [local instance (high)] instPowNat

/-- The number `coefficient * 10 ^ exponent` with a sign. -/
structure Decimal where
  negative : Bool
  coefficient : Nat
  exponent : Int
deriving DecidableEq

namespace Decimal

/-- A leading sign, true for a minus, and what follows it. -/
def splitSign : List Char → Bool × List Char
  | '-' :: cs => (true, cs)
  | '+' :: cs => (false, cs)
  | cs => (false, cs)

/-- The digits after a point, none if there is no point, and what follows them. -/
def splitFraction : List Char → List Char × List Char
  | '.' :: cs => (cs.takeWhile Char.isDigit, cs.dropWhile Char.isDigit)
  | cs => ([], cs)

/-- An exponent mark with a whole number, or nothing. -/
def readExponent? : List Char → Option Int
  | [] => some 0
  | c :: cs => if c = 'e' || c = 'E' then readInt? cs else none

/-- Digits with an optional point and exponent, under a sign read before. -/
def ofUnsigned? (negative : Bool) (cs : List Char) : Option Decimal :=
  let whole := cs.takeWhile Char.isDigit
  let (fraction, tail) := splitFraction (cs.dropWhile Char.isDigit)
  if whole.isEmpty && fraction.isEmpty then none
  else (readExponent? tail).map fun e : Int =>
    ⟨negative, Nat.ofDigitChars 10 (whole ++ fraction) 0, e - fraction.length⟩

/-- A whole text as a decimal. -/
def ofChars? (cs : List Char) : Option Decimal :=
  let (negative, body) := splitSign cs
  ofUnsigned? negative body

end Decimal

namespace Binary64

/-- The binary64 number nearest to a decimal. A decimal with its leading digit more than four
hundred places from the point is infinite or zero without being computed. -/
def ofDecimal (d : Decimal) : Binary64 :=
  let leading : Int := (Nat.toDigits 10 d.coefficient).length + d.exponent
  if d.coefficient = 0 || leading < -400 then ofUnits d.negative 0
  else if 400 < leading then .infinite d.negative
  else match d.exponent with
    | .ofNat e => nearest d.negative (d.coefficient * 10 ^ e * one) 1
    | .negSucc e => nearest d.negative (d.coefficient * one) (10 ^ (e + 1))

/-- The number that a text denotes. -/
def ofChars? (cs : List Char) : Option Binary64 :=
  let (negative, body) := Decimal.splitSign cs
  let word := String.ofList (body.map Char.toLower)
  if word = "inf" || word = "infinity" then some (.infinite negative)
  else if word = "nan" then some .nan
  else (Decimal.ofUnsigned? negative body).map ofDecimal

end Binary64

end RecordFilter
