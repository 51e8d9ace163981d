import RecordFilter.Number.Binary64

/-!
# Numbers in JSON text

A number without a point and an exponent is an integer if 64 bits hold it, signed or unsigned;
minus zero and all other numbers are floats. A float is read from its leading digits, as many as
64 bits hold: they are rounded to binary64, and multiplied or divided by the power of ten that the
rest of the text amounts to, with a second rounding. The result is close to the exact number but
need not be the nearest float. A number beyond the largest float is well-formed but has no value.
-/

namespace RecordFilter.Json

-- Powers are the repeated products of core, whatever else is imported beside this module.
attribute [local instance (high)] instPowNat

/-- A number with a value. -/
inductive Number where
  | int (value : Int)
  | float (value : Binary64)
deriving DecidableEq

namespace Number

/-- The number as a whole number of 64 bits with a sign, if it is one. -/
def toSigned? : Number → Option Int
  | int value => if -2 ^ (63 : Nat) ≤ value && value < 2 ^ (63 : Nat) then some value else none
  | float _ => none

/-- The number as a whole number of 64 bits without a sign, if it is one. -/
def toUnsigned? : Number → Option Int
  | int value => if 0 ≤ value && value < 2 ^ (64 : Nat) then some value else none
  | float _ => none

/-- The number as a whole number of one byte without a sign, if it is one. -/
def toByte? : Number → Option Nat
  | int value => if 0 ≤ value && value < 2 ^ (8 : Nat) then some value.toNat else none
  | float _ => none

/-- The number as a float. -/
def toFloat : Number → Binary64
  | int value => .ofInt value
  | float value => value

end Number

/-- The pieces of a number as written. -/
structure NumberText where
  negative : Bool
  whole : List Char
  fraction : Option (List Char)
  exponent : Option Int
deriving DecidableEq

namespace NumberText

/-- Splits off the digits at the front, of which there must be some. -/
def digits? (cs : List Char) : Option (List Char × List Char) :=
  if (cs.takeWhile Char.isDigit).isEmpty then none
  else some (cs.takeWhile Char.isDigit, cs.dropWhile Char.isDigit)

/-- Reads a point and the digits after it, if there is a point. -/
def readFraction : List Char → Option (Option (List Char) × List Char)
  | '.' :: cs => (digits? cs).map fun (digits, rest) => (some digits, rest)
  | cs => some (none, cs)

/-- A sign before the digits of an exponent, true for a minus. -/
def readSign : List Char → Bool × List Char
  | '-' :: cs => (true, cs)
  | '+' :: cs => (false, cs)
  | cs => (false, cs)

/-- The exponent that digits after a sign denote. -/
def exponentOf (negative : Bool) (digits : List Char) : Int :=
  if negative then -(Nat.ofDigitChars 10 digits 0 : Int) else (Nat.ofDigitChars 10 digits 0 : Int)

/-- Reads an exponent mark and what belongs to it, if there is a mark. -/
def readExponent : List Char → Option (Option Int × List Char)
  | [] => some (none, [])
  | c :: cs =>
    if c = 'e' || c = 'E' then
      (digits? (readSign cs).2).map fun (digits, rest) =>
        (some (exponentOf (readSign cs).1 digits), rest)
    else some (none, c :: cs)

/-- Reads a number without its minus. A zero has no digits after it. -/
def readUnsigned (negative : Bool) (cs : List Char) : Option (NumberText × List Char) :=
  match digits? cs with
  | none => none
  | some (whole, cs) =>
    if whole.head? == some '0' && 1 < whole.length then none
    else match readFraction cs with
      | none => none
      | some (fraction, cs) =>
        (readExponent cs).map fun (exponent, rest) => (⟨negative, whole, fraction, exponent⟩, rest)

/-- Reads a number at the front of a text. -/
def read : List Char → Option (NumberText × List Char)
  | '-' :: cs => readUnsigned true cs
  | cs => readUnsigned false cs

/-- Takes in digits as long as 64 bits hold the number; also how many were taken in. -/
def takeIn (significand : Nat) : List Char → Nat × Nat
  | [] => (significand, 0)
  | c :: cs =>
    let next := 10 * significand + (c.toNat - '0'.toNat)
    if next < 2 ^ (64 : Nat) then
      let (result, count) := takeIn next cs
      (result, count + 1)
    else (significand, 0)

/-- The rounded power of ten, in units. -/
def powerUnits (e : Nat) : Nat := BinaryFormat.double.round (10 ^ e * Binary64.one) 1

/-- The magnitude of a significand with a power of ten, in units, if there is a float for it. -/
def scale? (significand : Nat) (exponent : Int) : Option Nat :=
  let units := BinaryFormat.double.round (significand * Binary64.one) 1
  match exponent with
  | .ofNat e =>
    if significand = 0 then some 0
    else if 308 < e then none
    else
      let scaled := Binary64.mulUnits units (powerUnits e)
      if scaled < 2 ^ (2098 : Nat) then some scaled else none
  | .negSucc e =>
    let places := e + 1
    if places ≤ 308 then some (Binary64.divUnits units (powerUnits places))
    else if places ≤ 616 then
      let partly := Binary64.divUnits units (powerUnits 308)
      some (Binary64.divUnits partly (powerUnits (places - 308)))
    else some 0

/-- The number as a float. -/
def toFloat? (t : NumberText) : Option Binary64 :=
  let (whole, wholeCount) := takeIn 0 t.whole
  let (significand, fractionCount) := takeIn whole (t.fraction.getD [])
  let dropped : Int := ((t.whole.length - wholeCount : Nat) : Int)
  let exponent : Int := dropped - fractionCount + t.exponent.getD 0
  (scale? significand exponent).map (Binary64.ofUnits t.negative)

/-- The value of the number, if it has one. -/
def value? (t : NumberText) : Option Number :=
  let n := Nat.ofDigitChars 10 t.whole 0
  if t.fraction.isNone && t.exponent.isNone then
    if t.negative && 0 < n && n ≤ 2 ^ (63 : Nat) then some (.int (-n))
    else if !t.negative && n < 2 ^ (64 : Nat) then some (.int n)
    else t.toFloat?.map .float
  else t.toFloat?.map .float

theorem length_digits? {cs digits rest : List Char} (h : digits? cs = some (digits, rest)) :
    rest.length < cs.length := by
  unfold digits? at h
  split at h
  · cases h
  · next hne =>
    cases h
    have hsplit := congrArg List.length
      (List.takeWhile_append_dropWhile (p := Char.isDigit) (l := cs))
    have hpos : 0 < (cs.takeWhile Char.isDigit).length := by
      cases hw : cs.takeWhile Char.isDigit with
      | nil => simp [hw] at hne
      | cons => simp
    simp only [List.length_append] at hsplit
    omega

theorem length_readFraction {cs rest : List Char} {f : Option (List Char)}
    (h : readFraction cs = some (f, rest)) : rest.length ≤ cs.length := by
  unfold readFraction at h
  split at h
  · obtain ⟨⟨digits, r⟩, hd, he⟩ := Option.map_eq_some_iff.1 h
    cases he
    have := length_digits? hd
    simp only [List.length_cons]
    omega
  · cases h; exact Nat.le_refl _

theorem length_readSign (cs : List Char) : (readSign cs).2.length ≤ cs.length := by
  unfold readSign
  split <;> simp

theorem length_readExponent {cs rest : List Char} {e : Option Int}
    (h : readExponent cs = some (e, rest)) : rest.length ≤ cs.length := by
  unfold readExponent at h
  split at h
  · cases h; exact Nat.le_refl _
  · next c cs =>
    split at h
    · obtain ⟨⟨digits, r⟩, hd, he⟩ := Option.map_eq_some_iff.1 h
      cases he
      have h1 := length_digits? hd
      have h2 := length_readSign cs
      simp only [List.length_cons]
      omega
    · cases h; exact Nat.le_refl _

theorem length_readUnsigned {negative : Bool} {cs rest : List Char} {t : NumberText}
    (h : readUnsigned negative cs = some (t, rest)) : rest.length < cs.length := by
  unfold readUnsigned at h
  split at h
  · cases h
  · next whole cs₁ hd =>
    split at h
    · cases h
    · split at h
      · cases h
      · next fraction cs₂ hf =>
        obtain ⟨⟨e, r⟩, he, heq⟩ := Option.map_eq_some_iff.1 h
        cases heq
        have h1 := length_digits? hd
        have h2 := length_readFraction hf
        have h3 := length_readExponent he
        omega

/-- Reading a number leaves a shorter text. -/
theorem length_read {cs rest : List Char} {t : NumberText} (h : read cs = some (t, rest)) :
    rest.length < cs.length := by
  unfold read at h
  split at h
  · exact Nat.lt_succ_of_lt (length_readUnsigned h)
  · exact length_readUnsigned h

end NumberText

end RecordFilter.Json
