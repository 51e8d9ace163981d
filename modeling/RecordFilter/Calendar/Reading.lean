import RecordFilter.Calendar.Moment
import RecordFilter.Text.Blank

/-!
# Dates and times, read

A text is read against a layout, a list of items, and must be used up by it. There are six
layouts: the internet date-time with fixed widths and an offset from universal time; a date and a
time down to the second or the minute, joined by a `T` or by blanks; and a date alone. The numbers
of the last five may stand after blanks and need no leading zeros, and only a year with a sign may
have more than four digits. Second 60 is a leap second, also where none was announced.
-/

namespace RecordFilter

-- Powers are the repeated products of core, whatever else is imported beside this module.
attribute [local instance (high)] instPowNat

/-- The numbers that a layout collects. -/
structure DateParts where
  year : Int
  month : Nat
  day : Nat
  hour : Nat
  minute : Nat
  second : Nat
  nanosecond : Nat
  /-- Minutes that the written time is ahead of universal time. -/
  east : Int

/-- A number in a layout. -/
inductive DatePart where
  | year
  | month
  | day
  | hour
  | minute
  | second
deriving DecidableEq

/-- A piece of a layout. -/
inductive LayoutItem where
  /-- After any blanks, one or more digits, at most the given number. A year may have a sign, and
  then any number of digits. -/
  | number (part : DatePart) (width : Nat)
  /-- Just the given number of digits. -/
  | exactly (part : DatePart) (width : Nat)
  /-- One of these characters. -/
  | mark (choices : List Char)
  /-- Any number of blanks. -/
  | gap
  /-- A point and one or more digits, or nothing. -/
  | fraction
  /-- `Z`, or a sign with hours and minutes. -/
  | offset
deriving DecidableEq

namespace DateParts

/-- Nothing read yet. -/
def start : DateParts := ⟨0, 0, 0, 0, 0, 0, 0, 0⟩

/-- Stores a number. -/
def put (p : DateParts) : DatePart → Int → DateParts
  | .year, n => { p with year := n }
  | .month, n => { p with month := n.toNat }
  | .day, n => { p with day := n.toNat }
  | .hour, n => { p with hour := n.toNat }
  | .minute, n => { p with minute := n.toNat }
  | .second, n => { p with second := n.toNat }

/-- The day that was read. -/
def date? (p : DateParts) : Option Date := Date.ofParts? p.year p.month p.day

/-- The time that was read; second 60 is second 59 with a leap second. -/
def time? (p : DateParts) : Option TimeOfDay :=
  if p.second = 60 then TimeOfDay.ofParts? p.hour p.minute 59 (1000000000 + p.nanosecond)
  else TimeOfDay.ofParts? p.hour p.minute p.second p.nanosecond

/-- The moment that was read, in universal time. -/
def moment? (p : DateParts) : Option Moment := do
  let date ← p.date?
  let time ← p.time?
  Moment.toUniversal? ⟨date, time⟩ p.east

end DateParts

/-- The value of one or more digits at the front, at most `most`, and what follows them. -/
def frontNumber? (most : Nat) (cs : List Char) : Option (Nat × List Char) :=
  let digits := (cs.takeWhile Char.isDigit).take most
  if digits.isEmpty then none
  else some (Nat.ofDigitChars 10 digits 0, cs.drop digits.length)

/-- The value of just `width` digits at the front, and what follows them. -/
def frontDigits? (width : Nat) (cs : List Char) : Option (Nat × List Char) :=
  let digits := (cs.takeWhile Char.isDigit).take width
  if digits.length < width then none
  else some (Nat.ofDigitChars 10 digits 0, cs.drop width)

/-- Just the digits wanted are taken from the front. -/
theorem frontDigits?_eq_some_iff {width n : Nat} {cs rest : List Char} :
    frontDigits? width cs = some (n, rest) ↔ ∃ digits, cs = digits ++ rest ∧
      digits.length = width ∧ (∀ c ∈ digits, c.isDigit = true) ∧
        Nat.ofDigitChars 10 digits 0 = n := by
  unfold frontDigits?
  dsimp only
  constructor
  · intro h
    split at h
    · cases h
    · next hlength =>
      cases h
      have hle : width ≤ (cs.takeWhile Char.isDigit).length := by
        rw [List.length_take] at hlength
        omega
      have htake : (cs.takeWhile Char.isDigit).take width = cs.take width := by
        conv => rhs; rw [← List.takeWhile_append_dropWhile (p := Char.isDigit) (l := cs)]
        rw [List.take_append_of_le_length hle]
      refine ⟨(cs.takeWhile Char.isDigit).take width, ?_, ?_, ?_, rfl⟩
      · rw [htake, List.take_append_drop]
      · exact List.length_take_of_le hle
      · exact fun c hc => List.all_eq_true.1 List.all_takeWhile c (List.mem_of_mem_take hc)
  · rintro ⟨digits, rfl, rfl, hdigits, rfl⟩
    rw [List.takeWhile_append_of_pos hdigits, List.take_left, List.drop_left,
      if_neg (Nat.lt_irrefl _)]

/-- The nanoseconds that the digits of a fraction stand for; the ninth digit is the last that
counts. -/
def nanoseconds (digits : List Char) : Nat :=
  Nat.ofDigitChars 10 (digits.take 9) 0 * 10 ^ (9 - digits.length)

/-- Hours and minutes after the sign of an offset, in minutes. -/
def offsetMinutes? (cs : List Char) : Option (Nat × List Char) := do
  let (hours, cs) ← frontDigits? 2 cs
  let cs ← match cs with
    | ':' :: cs => some cs
    | _ => none
  let (minutes, cs) ← frontDigits? 2 cs
  if hours < 24 && minutes < 60 then return (hours * 60 + minutes, cs) else none

namespace LayoutItem

/-- Reads one item at the front of a text. -/
def read (p : DateParts) : LayoutItem → List Char → Option (DateParts × List Char)
  | .number part width, cs =>
    match part, Text.trimLeft cs with
    | .year, '-' :: cs => (frontNumber? cs.length cs).map fun (n, cs) => (p.put .year (-n), cs)
    | .year, '+' :: cs => (frontNumber? cs.length cs).map fun (n, cs) => (p.put .year n, cs)
    | part, cs => (frontNumber? width cs).map fun (n, cs) => (p.put part n, cs)
  | .exactly part width, cs => (frontDigits? width cs).map fun (n, cs) => (p.put part n, cs)
  | .mark choices, c :: cs => if choices.contains c then some (p, cs) else none
  | .mark _, [] => none
  | .gap, cs => some (p, Text.trimLeft cs)
  | .fraction, '.' :: cs =>
    let digits := cs.takeWhile Char.isDigit
    if digits.isEmpty then none
    else some ({ p with nanosecond := nanoseconds digits }, cs.dropWhile Char.isDigit)
  | .fraction, cs => some (p, cs)
  | .offset, 'Z' :: cs => some (p, cs)
  | .offset, 'z' :: cs => some (p, cs)
  | .offset, '+' :: cs => (offsetMinutes? cs).map fun (n, cs) => ({ p with east := n }, cs)
  | .offset, '-' :: cs => (offsetMinutes? cs).map fun (n, cs) => ({ p with east := -n }, cs)
  | .offset, '−' :: cs => (offsetMinutes? cs).map fun (n, cs) => ({ p with east := -n }, cs)
  | .offset, _ => none

end LayoutItem

/-- A way of writing a date or a moment. -/
abbrev DateLayout := List LayoutItem

namespace DateLayout

/-- Reads a whole text. -/
def read? (p : DateParts) : DateLayout → List Char → Option DateParts
  | [], [] => some p
  | [], _ :: _ => none
  | item :: items, cs =>
    match item.read p cs with
    | some (p, cs) => read? p items cs
    | none => none

/-- Year, month and day between hyphens. -/
def dateOnly : DateLayout :=
  [.number .year 4, .mark ['-'], .number .month 2, .mark ['-'], .number .day 2]

/-- Hours and minutes. -/
def minutes : DateLayout := [.number .hour 2, .mark [':'], .number .minute 2]

/-- Hours, minutes, seconds and a fraction. -/
def seconds : DateLayout := minutes ++ [.mark [':'], .number .second 2, .fraction]

/-- The internet date-time. -/
def internet : DateLayout :=
  [.exactly .year 4, .mark ['-'], .exactly .month 2, .mark ['-'], .exactly .day 2,
    .mark ['T', 't', ' '], .exactly .hour 2, .mark [':'], .exactly .minute 2, .mark [':'],
    .exactly .second 2, .fraction, .offset]

/-- The layouts of a moment, in the order in which they are tried. -/
def ofMoments : List DateLayout :=
  [internet, dateOnly ++ .mark ['T'] :: seconds, dateOnly ++ .gap :: seconds,
    dateOnly ++ .mark ['T'] :: minutes, dateOnly ++ .gap :: minutes, dateOnly]

/-- The moment that a whole text denotes under a layout; a date alone denotes its midnight. -/
def moment? (layout : DateLayout) (cs : List Char) : Option Moment :=
  (layout.read? .start cs).bind DateParts.moment?

end DateLayout

/-- The day that a trimmed text denotes. -/
def Date.ofChars? (cs : List Char) : Option Date :=
  (DateLayout.dateOnly.read? .start (Text.trimChars cs)).bind DateParts.date?

/-- The moment that a trimmed text denotes, offsets applied. -/
def Moment.ofChars? (cs : List Char) : Option Moment :=
  DateLayout.ofMoments.findSome? (·.moment? (Text.trimChars cs))

/-- The instant that a trimmed text denotes: an internet date-time, or else a moment, which is read
as universal time. -/
def Moment.instantOfChars? (cs : List Char) : Option Moment :=
  match DateLayout.internet.moment? (Text.trimChars cs) with
  | some moment => some moment
  | none => ofChars? (Text.trimChars cs)

end RecordFilter
