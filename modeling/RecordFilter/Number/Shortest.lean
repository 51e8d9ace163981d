import RecordFilter.Number.Decimal

/-!
# The shortest decimal that reads back

A binary64 magnitude is read back from every decimal in the interval of numbers that round to it;
the ends belong to the interval when the significand is even. For one, two, up to seventeen digits
the two neighbours of the magnitude on that decimal grid are tried; the first grid with a neighbour
inside the interval wins, and of two such neighbours the nearer one.

All lengths are counted in quarters of a unit, times 10^340, so that every grid point is whole.
-/

namespace RecordFilter

-- Powers are the repeated products of core, whatever else is imported beside this module.
attribute [local instance (high)] instPowNat

/-- Which of two equally near decimals is taken. -/
inductive Tie where
  | even
  | larger
deriving DecidableEq

/-- The decimals that read back as one magnitude. -/
structure ReadBack where
  low : Nat
  middle : Nat
  high : Nat
  closed : Bool

namespace ReadBack

/-- The factor that makes grid points whole. -/
def scale : Nat := 10 ^ (340 : Nat)

/-- The interval around a positive magnitude. Below a power of two the grid is twice as fine. -/
def ofUnits (units : Nat) : ReadBack :=
  let g := BinaryFormat.double.grid units
  let below := if 0 < g && units == 2 ^ (52 + g) then 2 ^ g else 2 * 2 ^ g
  { low := (4 * units - below) * scale
    middle := 4 * units * scale
    high := (4 * units + 2 * 2 ^ g) * scale
    closed := units / 2 ^ g % 2 == 0 }

def contains (i : ReadBack) (x : Nat) : Bool :=
  if i.closed then i.low ≤ x && x ≤ i.high else i.low < x && x < i.high

/-- The neighbour of the middle on a grid that reads back, as a multiple of the grid's step. -/
def onGrid? (i : ReadBack) (tie : Tie) (step : Nat) : Option Nat :=
  let c := i.middle / step
  let r := i.middle % step
  match i.contains (c * step), i.contains ((c + 1) * step) with
  | true, false => some c
  | false, true => some (c + 1)
  | false, false => none
  | true, true =>
    if 2 * r < step then some c
    else if step < 2 * r then some (c + 1)
    else match tie with
      | .even => some (c + c % 2)
      | .larger => some (c + 1)

end ReadBack

/-- Moves the zeros at the end of a coefficient into the exponent. -/
def Decimal.strip : Nat → Decimal → Decimal
  | 0, d => d
  | fuel + 1, d =>
    if d.coefficient % 10 = 0 then
      strip fuel ⟨d.negative, d.coefficient / 10, d.exponent + 1⟩
    else d

/-- The shortest decimal that reads back as a positive magnitude, and the nearest among those. -/
def Binary64.shortest (tie : Tie) (negative : Bool) (units : Nat) : Decimal :=
  let i := ReadBack.ofUnits units
  let places := (Nat.toDigits 10 (units * ReadBack.scale / Binary64.one)).length
  let tries := (List.range 17).map fun n => places - (n + 1)
  let found := tries.findSome? fun e =>
    (i.onGrid? tie (10 ^ e * (4 * Binary64.one))).map fun c => (c, e)
  let (c, e) := found.getD (0, 0)
  Decimal.strip 17 ⟨negative, c, (e : Int) - 340⟩

end RecordFilter
