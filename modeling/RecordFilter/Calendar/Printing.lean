import RecordFilter.Calendar.Moment
import RecordFilter.Number.Integer

/-!
# Dates and times, written

Year, month and day between hyphens; a year outside 0 to 9999 shows its sign. A moment adds `T` and
the time, with three, six or nine digits of a fraction if there is one; a leap second is written
as second 60.
-/

namespace RecordFilter

/-- A number with leading zeros up to a width. -/
def paddedChars (width n : Nat) : List Char :=
  let digits := Nat.toDigits 10 n
  List.replicate (width - digits.length) '0' ++ digits

namespace Date

/-- Four digits, or a sign and at least four digits. -/
def yearChars (year : Int) : List Char :=
  if 0 ≤ year && year ≤ 9999 then paddedChars 4 year.toNat
  else (if year < 0 then '-' else '+') :: paddedChars 4 year.natAbs

def chars (d : Date) : List Char :=
  yearChars d.year ++ '-' :: paddedChars 2 d.month ++ '-' :: paddedChars 2 d.day

end Date

namespace TimeOfDay

/-- The fewest digits, in threes, that show the nanoseconds. -/
def fractionChars (nanosecond : Nat) : List Char :=
  if nanosecond = 0 then []
  else if nanosecond % 1000000 = 0 then '.' :: paddedChars 3 (nanosecond / 1000000)
  else if nanosecond % 1000 = 0 then '.' :: paddedChars 6 (nanosecond / 1000)
  else '.' :: paddedChars 9 nanosecond

def chars (t : TimeOfDay) : List Char :=
  let leap := 1000000000 ≤ t.nanosecond
  paddedChars 2 t.hour ++ ':' :: paddedChars 2 t.minute ++ ':' ::
    paddedChars 2 (if leap then t.second + 1 else t.second) ++
    fractionChars (if leap then t.nanosecond - 1000000000 else t.nanosecond)

end TimeOfDay

def Moment.chars (m : Moment) : List Char := m.date.chars ++ 'T' :: m.time.chars

end RecordFilter
