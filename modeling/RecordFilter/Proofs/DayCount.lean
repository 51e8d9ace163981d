import RecordFilter.Calendar.Moment

/-!
# Days and minutes counted

The days of the calendar are numbered one after the other, so the days next to a day are found by
counting (`Date.next?_eq_some_iff`, `Date.previous?_eq_some_iff`), and no two days have the same
number. With the minutes of a day this numbers the minutes of all days, and a moment is moved to
universal time by subtracting from that number: `Moment.toUniversal?_eq_some_iff`.
-/

namespace RecordFilter

/-! ## Years and months -/

/-- The days before a year, from the beginning of the year zero on. -/
def daysBeforeYear (year : Int) : Int :=
  365 * year + (year + 3) / 4 - (year + 99) / 100 + (year + 399) / 400

/-- The days of a year before a month. -/
def daysBeforeMonth (year : Int) : Nat → Nat
  | 0 => 0
  | month + 1 => daysBeforeMonth year month + daysInMonth year month

def daysInYear (year : Int) : Nat := if isLeapYear year then 366 else 365

/-- A year is a leap year if four divides it, but for the centuries that four hundred does not. -/
theorem daysBeforeYear_succ (year : Int) :
    daysBeforeYear (year + 1) = daysBeforeYear year + daysInYear year := by
  have hfour : (year + 1 + 3) / 4 = (year + 3) / 4 + if year % 4 = 0 then 1 else 0 := by
    split <;> omega
  have hcentury : (year + 1 + 99) / 100 = (year + 99) / 100 + if year % 100 = 0 then 1 else 0 := by
    split <;> omega
  have hlong : (year + 1 + 399) / 400 = (year + 399) / 400 + if year % 400 = 0 then 1 else 0 := by
    split <;> omega
  unfold daysBeforeYear daysInYear isLeapYear
  rw [hfour, hcentury, hlong]
  by_cases h400 : year % 400 = 0
  · have h100 : year % 100 = 0 := by omega
    have h4 : year % 4 = 0 := by omega
    simp [h4, h100, h400]
    omega
  · by_cases h100 : year % 100 = 0
    · have h4 : year % 4 = 0 := by omega
      simp [h4, h100, h400]
      omega
    · by_cases h4 : year % 4 = 0 <;> simp [h4, h100, h400] <;> omega

theorem daysBeforeYear_mono {a b : Int} (h : a ≤ b) : daysBeforeYear a ≤ daysBeforeYear b := by
  unfold daysBeforeYear
  omega

theorem daysBeforeMonth_mono (year : Int) {a b : Nat} (h : a ≤ b) :
    daysBeforeMonth year a ≤ daysBeforeMonth year b := by
  induction h with
  | refl => exact Nat.le_refl _
  | step _ ih => exact Nat.le_trans ih (Nat.le_add_right _ _)

/-- The twelve months make up the year. -/
theorem daysBeforeMonth_thirteen (year : Int) : daysBeforeMonth year 13 = daysInYear year := by
  unfold daysInYear
  cases hleap : isLeapYear year <;> simp [daysBeforeMonth, daysInMonth, hleap]

theorem daysInMonth_pos_iff {year : Int} {month : Nat} :
    0 < daysInMonth year month ↔ 1 ≤ month ∧ month ≤ 12 := by
  unfold daysInMonth
  grind

/-! ## Days -/

namespace Date

variable {d e : Date}

/-- The number of a day in its year. -/
def dayOfYear (d : Date) : Nat := daysBeforeMonth d.year d.month + d.day

/-- The number of a day. The first day of the year zero is the first one. -/
def dayNumber (d : Date) : Int := daysBeforeYear d.year + d.dayOfYear

theorem ofParts?_eq_some_iff {year : Int} {month day : Nat} :
    ofParts? year month day = some d ↔ d.year = year ∧ d.month = month ∧ d.day = day := by
  unfold ofParts?
  constructor
  · intro h
    split at h
    · cases h
      exact ⟨rfl, rfl, rfl⟩
    · cases h
  · rintro ⟨rfl, rfl, rfl⟩
    exact dif_pos d.inCalendar

theorem ofParts?_eq_none_iff {year : Int} {month day : Nat} : ofParts? year month day = none ↔
    ¬ (-262143 ≤ year ∧ year ≤ 262142 ∧ 1 ≤ day ∧ day ≤ daysInMonth year month) := by
  unfold ofParts?
  split <;> simp_all

theorem month_bounds (d : Date) : 1 ≤ d.month ∧ d.month ≤ 12 := by
  have hcalendar := d.inCalendar
  have hlength : 0 < daysInMonth d.year d.month := by omega
  exact daysInMonth_pos_iff.1 hlength

/-- A day lies behind the days before its month, and not behind those of its month. -/
theorem dayOfYear_bounds (d : Date) : daysBeforeMonth d.year d.month < d.dayOfYear ∧
    d.dayOfYear ≤ daysBeforeMonth d.year (d.month + 1) := by
  have hcalendar := d.inCalendar
  rw [daysBeforeMonth, dayOfYear]
  omega

theorem dayNumber_bounds (d : Date) :
    daysBeforeYear d.year < d.dayNumber ∧ d.dayNumber ≤ daysBeforeYear (d.year + 1) := by
  have hmonths : daysBeforeMonth d.year (d.month + 1) ≤ daysInYear d.year := by
    rw [← daysBeforeMonth_thirteen]
    exact daysBeforeMonth_mono d.year (Nat.succ_le_succ d.month_bounds.2)
  have hbounds := d.dayOfYear_bounds
  rw [daysBeforeYear_succ, dayNumber]
  omega

theorem year_eq_of_dayNumber (h : d.dayNumber = e.dayNumber) : d.year = e.year := by
  have hd := d.dayNumber_bounds
  have he := e.dayNumber_bounds
  rcases Int.lt_trichotomy d.year e.year with hlt | heq | hgt
  · have hmono := daysBeforeYear_mono (Int.add_one_le_of_lt hlt)
    omega
  · exact heq
  · have hmono := daysBeforeYear_mono (Int.add_one_le_of_lt hgt)
    omega

theorem month_eq_of_dayOfYear (hyear : d.year = e.year) (h : d.dayOfYear = e.dayOfYear) :
    d.month = e.month := by
  have hd := d.dayOfYear_bounds
  have he := e.dayOfYear_bounds
  rw [hyear] at hd
  rcases Nat.lt_trichotomy d.month e.month with hlt | heq | hgt
  · have hmono := daysBeforeMonth_mono e.year (Nat.add_one_le_of_lt hlt)
    omega
  · exact heq
  · have hmono := daysBeforeMonth_mono e.year (Nat.add_one_le_of_lt hgt)
    omega

/-- **No two days have the same number.** -/
theorem eq_of_dayNumber (h : d.dayNumber = e.dayNumber) : d = e := by
  have hyear := year_eq_of_dayNumber h
  have hordinal : d.dayOfYear = e.dayOfYear := by
    rw [dayNumber, dayNumber, hyear] at h
    omega
  have hmonth := month_eq_of_dayOfYear hyear hordinal
  have hday : d.day = e.day := by
    rw [dayOfYear, dayOfYear, hyear, hmonth] at hordinal
    omega
  exact Option.some.inj ((ofParts?_eq_some_iff.2 ⟨hyear, hmonth, hday⟩).symm.trans
    (ofParts?_eq_some_iff.2 ⟨rfl, rfl, rfl⟩))

/-! ## The days next to a day -/

theorem dayNumber_firstOfYear (hmonth : d.month = 1) (hday : d.day = 1) :
    d.dayNumber = daysBeforeYear d.year + 1 := by
  rw [dayNumber, dayOfYear, hmonth, hday]
  rfl

theorem dayNumber_lastOfYear (hmonth : d.month = 12) (hday : d.day = 31) :
    d.dayNumber = daysBeforeYear (d.year + 1) := by
  have hmonths : daysBeforeMonth d.year 12 + 31 = daysInYear d.year :=
    daysBeforeMonth_thirteen d.year
  rw [dayNumber, dayOfYear, hmonth, hday, daysBeforeYear_succ]
  omega

/-- The last day of a month is the one with its length, and December has 31 days. -/
theorem eq_lastOfYear (hday : ¬ d.day < daysInMonth d.year d.month) (hmonth : ¬ d.month < 12) :
    d.month = 12 ∧ d.day = 31 := by
  have hcalendar := d.inCalendar
  have hdecember : d.month = 12 := by
    have hbounds := d.month_bounds
    omega
  rw [hdecember] at hcalendar hday
  have hlength : daysInMonth d.year 12 = 31 := rfl
  omega

theorem dayNumber_next? (h : d.next? = some e) : e.dayNumber = d.dayNumber + 1 := by
  have hcalendar := d.inCalendar
  unfold next? at h
  split at h
  · obtain ⟨hyear, hmonth, hday⟩ := ofParts?_eq_some_iff.1 h
    rw [dayNumber, dayNumber, dayOfYear, dayOfYear, hyear, hmonth, hday]
    omega
  · next hlast =>
    split at h
    · obtain ⟨hyear, hmonth, hday⟩ := ofParts?_eq_some_iff.1 h
      rw [dayNumber, dayNumber, dayOfYear, dayOfYear, hyear, hmonth, hday, daysBeforeMonth]
      omega
    · next hdecember =>
      obtain ⟨hyear, hmonth, hday⟩ := ofParts?_eq_some_iff.1 h
      obtain ⟨htwelve, hthirtyOne⟩ := eq_lastOfYear hlast hdecember
      rw [dayNumber_firstOfYear hmonth hday, dayNumber_lastOfYear htwelve hthirtyOne, hyear]

theorem dayNumber_previous? (h : d.previous? = some e) : d.dayNumber = e.dayNumber + 1 := by
  have hcalendar := d.inCalendar
  unfold previous? at h
  split at h
  · obtain ⟨hyear, hmonth, hday⟩ := ofParts?_eq_some_iff.1 h
    rw [dayNumber, dayNumber, dayOfYear, dayOfYear, hyear, hmonth, hday]
    omega
  · next hfirst =>
    split at h
    · next hmonths =>
      obtain ⟨hyear, hmonth, hday⟩ := ofParts?_eq_some_iff.1 h
      have hbefore : daysBeforeMonth d.year d.month =
          daysBeforeMonth d.year (d.month - 1) + daysInMonth d.year (d.month - 1) := by
        rw [← daysBeforeMonth, Nat.succ_eq_add_one, Nat.sub_add_cancel (Nat.le_of_lt hmonths)]
      rw [dayNumber, dayNumber, dayOfYear, dayOfYear, hyear, hmonth, hday, hbefore]
      omega
    · obtain ⟨hyear, hmonth, hday⟩ := ofParts?_eq_some_iff.1 h
      have hjanuary : d.month = 1 := by
        have hbounds := d.month_bounds
        omega
      rw [dayNumber_firstOfYear hjanuary (by omega), dayNumber_lastOfYear hmonth hday, hyear,
        Int.sub_add_cancel]

/-- Only the last day of the calendar has none after it. -/
theorem dayNumber_le_of_next?_eq_none (h : d.next? = none) (e : Date) :
    e.dayNumber ≤ d.dayNumber := by
  have hcalendar := d.inCalendar
  unfold next? at h
  split at h
  · have hout := ofParts?_eq_none_iff.1 h
    omega
  · next hlast =>
    split at h
    · next hmonth =>
      have hout := ofParts?_eq_none_iff.1 h
      have hlength : 0 < daysInMonth d.year (d.month + 1) := daysInMonth_pos_iff.2 (by omega)
      omega
    · next hdecember =>
      have hout := ofParts?_eq_none_iff.1 h
      have hlength : daysInMonth (d.year + 1) 1 = 31 := rfl
      obtain ⟨htwelve, hthirtyOne⟩ := eq_lastOfYear hlast hdecember
      have hyear : e.year + 1 ≤ d.year + 1 := by
        have hin := e.inCalendar
        omega
      rw [dayNumber_lastOfYear htwelve hthirtyOne]
      exact Int.le_trans e.dayNumber_bounds.2 (daysBeforeYear_mono hyear)

/-- Only the first day of the calendar has none before it. -/
theorem dayNumber_le_of_previous?_eq_none (h : d.previous? = none) (e : Date) :
    d.dayNumber ≤ e.dayNumber := by
  have hcalendar := d.inCalendar
  have hmonths := d.month_bounds
  unfold previous? at h
  split at h
  · have hout := ofParts?_eq_none_iff.1 h
    omega
  · split at h
    · have hout := ofParts?_eq_none_iff.1 h
      have hlength : 0 < daysInMonth d.year (d.month - 1) := daysInMonth_pos_iff.2 (by omega)
      omega
    · have hout := ofParts?_eq_none_iff.1 h
      have hlength : daysInMonth (d.year - 1) 12 = 31 := rfl
      have hyear : d.year ≤ e.year := by
        have hin := e.inCalendar
        omega
      rw [dayNumber_firstOfYear (by omega) (by omega)]
      exact Int.lt_of_le_of_lt (daysBeforeYear_mono hyear) e.dayNumber_bounds.1

/-- **The day after** is the one with the next number. -/
theorem next?_eq_some_iff : d.next? = some e ↔ e.dayNumber = d.dayNumber + 1 := by
  refine ⟨dayNumber_next?, fun h => ?_⟩
  cases hnext : d.next? with
  | none =>
    have hlast := dayNumber_le_of_next?_eq_none hnext e
    omega
  | some day => rw [eq_of_dayNumber ((dayNumber_next? hnext).trans h.symm)]

/-- **The day before** is the one with the number before. -/
theorem previous?_eq_some_iff : d.previous? = some e ↔ e.dayNumber = d.dayNumber - 1 := by
  constructor
  · intro h
    have hprevious := dayNumber_previous? h
    omega
  · intro h
    cases hprevious : d.previous? with
    | none =>
      have hfirst := dayNumber_le_of_previous?_eq_none hprevious e
      omega
    | some day =>
      have hday := dayNumber_previous? hprevious
      rw [eq_of_dayNumber (d := day) (e := e) (by omega)]

/-- The day that it is some minutes after a day has begun, or before. -/
def onMinute? (d : Date) (minutes : Int) : Option Date :=
  if minutes < 0 then d.previous? else if 1440 ≤ minutes then d.next? else some d

theorem onMinute?_eq_some_iff {minutes : Int} (hlow : -1440 ≤ minutes) (hhigh : minutes < 2880) :
    d.onMinute? minutes = some e ↔ e.dayNumber = d.dayNumber + minutes / 1440 := by
  unfold onMinute?
  split
  · rw [previous?_eq_some_iff, show minutes / 1440 = -1 by omega, Int.sub_eq_add_neg]
  · split
    · rw [next?_eq_some_iff, show minutes / 1440 = 1 by omega]
    · rw [Option.some_inj, show minutes / 1440 = 0 by omega, Int.add_zero]
      exact ⟨fun h => h ▸ rfl, fun h => (eq_of_dayNumber h).symm⟩

end Date

/-! ## Moments -/

theorem TimeOfDay.ofParts?_eq_some_iff {hour minute second nanosecond : Nat} {t : TimeOfDay} :
    ofParts? hour minute second nanosecond = some t ↔
      t.hour = hour ∧ t.minute = minute ∧ t.second = second ∧ t.nanosecond = nanosecond := by
  unfold ofParts?
  constructor
  · intro h
    split at h
    · cases h
      exact ⟨rfl, rfl, rfl, rfl⟩
    · cases h
  · rintro ⟨rfl, rfl, rfl, rfl⟩
    exact dif_pos t.inDay

namespace Moment

/-- The number of the minute that a moment is in, counted over all days. -/
def minuteNumber (m : Moment) : Int := m.date.dayNumber * 1440 + m.time.hour * 60 + m.time.minute

/-- The first moment is the second one in the time of a zone that is some minutes ahead: the number
of its minute is greater by as many, and within the minute they are the same. -/
structure IsAheadOf (m u : Moment) (minutes : Int) : Prop where
  minute : m.minuteNumber = u.minuteNumber + minutes
  second : m.time.second = u.time.second
  nanosecond : m.time.nanosecond = u.time.nanosecond

/-- The minutes of the day are taken first, and the day is looked up by them. -/
theorem toUniversal?_eq_bind (m : Moment) (east : Int) {minutes : Int}
    (h : m.time.hour * 60 + m.time.minute - east = minutes) :
    m.toUniversal? east = (m.date.onMinute? minutes).bind fun date =>
      (TimeOfDay.ofParts? ((minutes % 1440).toNat / 60) ((minutes % 1440).toNat % 60)
        m.time.second m.time.nanosecond).bind fun time => some ⟨date, time⟩ := by
  subst h
  unfold toUniversal? Date.onMinute?
  dsimp only
  split
  · rfl
  · split <;> rfl

/-- **Moving a moment to universal time** takes the minutes from its number that it is ahead. -/
theorem toUniversal?_eq_some_iff {m u : Moment} {east : Int} (hlow : -1440 < east)
    (hhigh : east < 1440) : m.toUniversal? east = some u ↔ m.IsAheadOf u east := by
  have hm := m.time.inDay
  have hu := u.time.inDay
  obtain ⟨minutes, hminutes⟩ : ∃ minutes, m.time.hour * 60 + m.time.minute - east = minutes :=
    ⟨_, rfl⟩
  have hsplit : m.toUniversal? east = some u ↔
      u.date.dayNumber = m.date.dayNumber + minutes / 1440 ∧
        u.time.hour = (minutes % 1440).toNat / 60 ∧ u.time.minute = (minutes % 1440).toNat % 60 ∧
        u.time.second = m.time.second ∧ u.time.nanosecond = m.time.nanosecond := by
    rw [toUniversal?_eq_bind m east hminutes, ← TimeOfDay.ofParts?_eq_some_iff,
      ← Date.onMinute?_eq_some_iff (by omega) (by omega), Option.bind_eq_some_iff]
    simp only [Option.bind_eq_some_iff]
    constructor
    · rintro ⟨date, hdate, time, htime, hmoment⟩
      cases hmoment
      exact ⟨hdate, htime⟩
    · rintro ⟨hdate, htime⟩
      exact ⟨u.date, hdate, u.time, htime, rfl⟩
  rw [hsplit]
  constructor
  · rintro ⟨hday, hhour, hminute, hsecond, hnanosecond⟩
    refine ⟨?_, hsecond.symm, hnanosecond.symm⟩
    rw [minuteNumber, minuteNumber, hday, hhour, hminute]
    omega
  · rintro ⟨hminute, hsecond, hnanosecond⟩
    unfold minuteNumber at hminute
    refine ⟨?_, ?_, ?_, hsecond.symm, hnanosecond.symm⟩ <;> omega

/-- Universal time is not ahead of itself. -/
theorem toUniversal?_zero (m : Moment) : m.toUniversal? 0 = some m :=
  (toUniversal?_eq_some_iff (by decide) (by decide)).2 ⟨(Int.add_zero _).symm, rfl, rfl⟩

end Moment

end RecordFilter
