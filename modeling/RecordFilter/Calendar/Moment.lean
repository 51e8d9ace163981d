/-!
# Dates and times of day

Dates of the Gregorian calendar carried back before its introduction, with a year zero, between
the years -262143 and 262142. A moment is a date with a time of day; it has no zone of its own and
is read as universal time where an instant is meant. The last second of a minute may be a leap
second, which is held as second 59 with a thousand million nanoseconds or more.
-/

namespace RecordFilter

/-- Every fourth year, but of the full centuries only every fourth. -/
def isLeapYear (year : Int) : Bool := year % 4 == 0 && (year % 100 != 0 || year % 400 == 0)

/-- The length of a month; no other number has days. -/
def daysInMonth (year : Int) : Nat → Nat
  | 1 | 3 | 5 | 7 | 8 | 10 | 12 => 31
  | 4 | 6 | 9 | 11 => 30
  | 2 => if isLeapYear year then 29 else 28
  | _ => 0

/-- A day of the calendar. -/
structure Date where
  year : Int
  month : Nat
  day : Nat
  inCalendar : -262143 ≤ year ∧ year ≤ 262142 ∧ 1 ≤ day ∧ day ≤ daysInMonth year month
deriving DecidableEq

namespace Date

/-- The day with these numbers, if the calendar has it. -/
def ofParts? (year : Int) (month day : Nat) : Option Date :=
  if h : -262143 ≤ year ∧ year ≤ 262142 ∧ 1 ≤ day ∧ day ≤ daysInMonth year month then
    some ⟨year, month, day, h⟩
  else none

/-- The first day of 1970. -/
def epoch : Date := ⟨1970, 1, 1, by decide⟩

/-- The day after. -/
def next? (d : Date) : Option Date :=
  if d.day < daysInMonth d.year d.month then ofParts? d.year d.month (d.day + 1)
  else if d.month < 12 then ofParts? d.year (d.month + 1) 1
  else ofParts? (d.year + 1) 1 1

/-- The day before. -/
def previous? (d : Date) : Option Date :=
  if 1 < d.day then ofParts? d.year d.month (d.day - 1)
  else if 1 < d.month then ofParts? d.year (d.month - 1) (daysInMonth d.year (d.month - 1))
  else ofParts? (d.year - 1) 12 31

/-- Earlier days are less. -/
def compare (a b : Date) : Ordering :=
  (Ord.compare a.year b.year).then <| (Ord.compare a.month b.month).then <| Ord.compare a.day b.day

end Date

/-- A time of day. -/
structure TimeOfDay where
  hour : Nat
  minute : Nat
  second : Nat
  nanosecond : Nat
  inDay : hour < 24 ∧ minute < 60 ∧ second < 60 ∧
    (nanosecond < 1000000000 ∨ second = 59 ∧ nanosecond < 2000000000)
deriving DecidableEq

namespace TimeOfDay

/-- The time with these numbers, if a day has it. -/
def ofParts? (hour minute second nanosecond : Nat) : Option TimeOfDay :=
  if h : hour < 24 ∧ minute < 60 ∧ second < 60 ∧
      (nanosecond < 1000000000 ∨ second = 59 ∧ nanosecond < 2000000000) then
    some ⟨hour, minute, second, nanosecond, h⟩
  else none

def midnight : TimeOfDay := ⟨0, 0, 0, 0, by decide⟩

/-- Earlier times are less; a leap second comes after the rest of its minute. -/
def compare (a b : TimeOfDay) : Ordering :=
  (Ord.compare a.hour b.hour).then <| (Ord.compare a.minute b.minute).then <|
    (Ord.compare a.second b.second).then <| Ord.compare a.nanosecond b.nanosecond

end TimeOfDay

/-- A date with a time of day. -/
structure Moment where
  date : Date
  time : TimeOfDay
deriving DecidableEq

namespace Moment

/-- The first moment of a day. -/
def startOf (date : Date) : Moment := ⟨date, .midnight⟩

/-- Earlier moments are less. -/
def compare (a b : Moment) : Ordering := (a.date.compare b.date).then (a.time.compare b.time)

/-- The universal time of a local moment that is `east` minutes ahead, for less than a day. -/
def toUniversal? (m : Moment) (east : Int) : Option Moment := do
  let minutes : Int := m.time.hour * 60 + m.time.minute - east
  let date ←
    if minutes < 0 then m.date.previous?
    else if 1440 ≤ minutes then m.date.next?
    else some m.date
  let ofDay := (minutes % 1440).toNat
  let time ← TimeOfDay.ofParts? (ofDay / 60) (ofDay % 60) m.time.second m.time.nanosecond
  return ⟨date, time⟩

end Moment

end RecordFilter
