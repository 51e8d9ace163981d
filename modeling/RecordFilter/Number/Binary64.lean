import RecordFilter.Number.Integer

/-!
# Binary floating point

A finite binary64 number is a sign and a magnitude, and every magnitude is a whole number of units
of 2^-1074, the smallest positive one. Keeping the number of units makes values, order and
rounding exact arithmetic on natural numbers. A format (`double`, `single`) says which magnitudes
it has: near a magnitude they lie on a grid of spacing 2^grid units, and there is a bound above
which there are none. `BinaryFormat.round` goes to the nearest point of the grid, a half to the
even one; past the bound `Binary64.nearest` is infinite.
-/

namespace RecordFilter

-- Powers are the repeated products of core, whatever else is imported beside this module.
attribute [local instance (high)] instPowNat

/-- The whole number nearest to `num / den`, a half going to the even one. -/
def roundHalfEven (num den : Nat) : Nat :=
  let q := num / den
  let r := num % den
  if 2 * r < den then q
  else if den < 2 * r then q + 1
  else q + q % 2

/-- A binary format in units of 2^-1074: bits of the significand, the exponent of its finest grid,
and the exponent of the first power of two that is too large. -/
structure BinaryFormat where
  precision : Nat
  finest : Nat
  bound : Nat

namespace BinaryFormat

/-- Double precision. -/
def double : BinaryFormat := ⟨53, 0, 2098⟩

/-- Single precision. -/
def single : BinaryFormat := ⟨24, 925, 1202⟩

/-- The exponent of the grid on which magnitudes near `units` lie. -/
def grid (f : BinaryFormat) (units : Nat) : Nat := max f.finest (units.log2 + 1 - f.precision)

/-- The magnitudes of the format. -/
def Holds (f : BinaryFormat) (units : Nat) : Prop :=
  units < 2 ^ f.bound ∧ units % 2 ^ f.grid units = 0

instance (f : BinaryFormat) (units : Nat) : Decidable (f.Holds units) := by
  unfold Holds; infer_instance

/-- The point of the grid nearest to `num / den` units, a half going to the even one. -/
def round (f : BinaryFormat) (num den : Nat) : Nat :=
  let g := f.grid (num / den)
  roundHalfEven num (den * 2 ^ g) * 2 ^ g

/-- The largest magnitude. -/
def largest (f : BinaryFormat) : Nat := (2 ^ f.precision - 1) * 2 ^ (f.bound - f.precision)

end BinaryFormat

/-- A binary64 number. All not-a-numbers are one. -/
inductive Binary64 where
  | nan
  | infinite (negative : Bool)
  | finite (negative : Bool) (units : Nat) (holds : BinaryFormat.double.Holds units)
deriving DecidableEq

namespace Binary64

/-- The units in one. -/
def one : Nat := 2 ^ (1074 : Nat)

/-- A magnitude of the format with a sign; infinite past the largest one. -/
def ofUnits (negative : Bool) (units : Nat) : Binary64 :=
  if h : BinaryFormat.double.Holds units then .finite negative units h else .infinite negative

/-- The binary64 number nearest to `num / den` units with a sign. -/
def nearest (negative : Bool) (num den : Nat) : Binary64 :=
  ofUnits negative (BinaryFormat.double.round num den)

/-- Positive zero. -/
def zero : Binary64 := ofUnits false 0

/-- The binary64 number nearest to a whole number. -/
def ofInt (i : Int) : Binary64 := nearest (i < 0) (i.natAbs * one) 1

/-- Where the number lies on the line, in units; the infinities lie just past the finite ones. -/
def place? : Binary64 → Option Int
  | .nan => none
  | .infinite negative => some (if negative then -2 ^ (2098 : Nat) else 2 ^ (2098 : Nat))
  | .finite negative units _ => some (if negative then -units else units)

/-- Numerical order. Not-a-number is comparable with nothing, and the two zeros are equal. -/
def compare? (a b : Binary64) : Option Ordering :=
  match a.place?, b.place? with
  | some x, some y => some (compare x y)
  | _, _ => none

/-- Numerical equality: the zeros are equal and not-a-number equals nothing. -/
def numericallyEqual (a b : Binary64) : Bool := a.compare? b == some .eq

/-- Numerical order, strict. Nothing is less than not-a-number, nor the other way round. -/
def isLess (a b : Binary64) : Bool := a.compare? b == some .lt

/-- The same number with the sign changed. -/
def negate : Binary64 → Binary64
  | .nan => .nan
  | .infinite negative => .infinite (!negative)
  | .finite negative units h => .finite (!negative) units h

def isFinite : Binary64 → Bool
  | .finite .. => true
  | _ => false

/-- The whole number that a finite number is, if it is one. -/
def toInt? : Binary64 → Option Int
  | .finite negative units _ =>
    if units % one = 0 then
      some (if negative then -((units / one : Nat) : Int) else ((units / one : Nat) : Int))
    else none
  | _ => none

/-- The nearest single-precision number, kept as binary64; infinite past the largest one. -/
def toSingle : Binary64 → Binary64
  | .finite negative units _ =>
    let rounded := BinaryFormat.single.round units 1
    if rounded < 2 ^ BinaryFormat.single.bound then ofUnits negative rounded
    else .infinite negative
  | special => special

/-- The nearest single-precision number. A finite number larger than every single-precision number
has none. -/
def toSingle? : Binary64 → Option Binary64
  | .finite negative units holds =>
    if BinaryFormat.single.largest < units then none
    else some (toSingle (.finite negative units holds))
  | special => some special

/-- The product of two magnitudes in units, rounded. -/
def mulUnits (a b : Nat) : Nat := BinaryFormat.double.round (a * b) one

/-- The quotient of two magnitudes in units, rounded. -/
def divUnits (a b : Nat) : Nat := BinaryFormat.double.round (a * one) b

/-- The interchange encoding: sign bit, eleven exponent bits, fifty-two significand bits. -/
def toBits : Binary64 → Nat
  | .nan => 0x7FF8000000000000
  | .infinite negative => sign negative + 0x7FF0000000000000
  | .finite negative units _ =>
    let g := BinaryFormat.double.grid units
    sign negative + (g * 2 ^ (52 : Nat) + units / 2 ^ g)
where
  /-- The sign bit in its place. -/
  sign (negative : Bool) : Nat := if negative then 2 ^ (63 : Nat) else 0

end Binary64

end RecordFilter
