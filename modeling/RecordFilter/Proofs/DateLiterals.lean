import RecordFilter.Proofs.WrittenMoments
import RecordFilter.Samples

/-!
# Literals for dates

A literal is converted to an instant or to a moment by the moment that its text is. What it stands
for is said by what is written (`Literal.DenotesMoment`): a local moment and the minutes that it is
ahead of universal time. With the layouts being apart, instants, moments and days agree:
`Literal.coerce_dates`.
-/

namespace RecordFilter

namespace Literal

variable {ρ : Type} {catalog : Catalog ρ} {literal : Literal} {moment : Moment}

/-- The moment that the text of a literal is. -/
def moment? (literal : Literal) : Option Moment :=
  literal.asText?.bind (Moment.ofChars? ·.toList)

/-- A literal stands for a moment in universal time: its text is written in a time that is some
minutes ahead of it. -/
def DenotesMoment (literal : Literal) (moment : Moment) : Prop :=
  ∃ text written east, literal.asText? = some text ∧
    Moment.IsWritten (Text.trimChars text.toList) written east ∧ written.IsAheadOf moment east

theorem moment?_eq_some_iff : literal.moment? = some moment ↔ literal.DenotesMoment moment := by
  rw [moment?, Option.bind_eq_some_iff]
  simp only [Moment.ofChars?_eq_some_iff_isWritten]
  constructor
  · rintro ⟨text, htext, written, east, h⟩
    exact ⟨text, written, east, htext, h⟩
  · rintro ⟨text, written, east, htext, h⟩
    exact ⟨text, htext, written, east, h⟩

/-- Instants are read as moments are. -/
theorem coerceTo?_dateTime (literal : Literal) :
    literal.coerceTo? (.dateTime : FieldType ρ) = literal.moment?.map .dateTime := by
  simp only [coerceTo?, Moment.instantOfChars?_eq, moment?]

theorem coerceTo?_localDateTime (literal : Literal) :
    literal.coerceTo? (.localDateTime : FieldType ρ) = literal.moment?.map .localDateTime := by
  rw [coerceTo?, moment?]

/-- **What a literal becomes as an instant and as a moment** is what it stands for. -/
theorem coerce_moment_iff :
    (literal.coerce catalog .dateTime = .ok (.dateTime moment) ↔ literal.DenotesMoment moment) ∧
    (literal.coerce catalog .localDateTime = .ok (.localDateTime moment) ↔
      literal.DenotesMoment moment) := by
  rw [← moment?_eq_some_iff]
  by_cases hnull : literal = .null
  · subst hnull
    exact ⟨⟨nofun, nofun⟩, ⟨nofun, nofun⟩⟩
  · have hnull := isNull_of_ne hnull
    simp [coerce_eq_ok_iff hnull, FieldType.unwrap, coerceTo?_dateTime, coerceTo?_localDateTime]

/-- Where the text of a literal is no moment, the literal is none. -/
theorem coerce_of_no_moment (h : literal.moment? = none) :
    literal.coerce catalog .dateTime = .error (.conversion literal.text "DateTime<Utc>") ∧
      literal.coerce catalog .localDateTime =
        .error (.conversion literal.text "NaiveDateTime") := by
  by_cases hnull : literal = .null
  · subst hnull
    exact ⟨rfl, rfl⟩
  · have hinstant : literal.coerceTo? (.dateTime : FieldType ρ) = none := by
      rw [coerceTo?_dateTime, h]
      rfl
    have hmoment : literal.coerceTo? (.localDateTime : FieldType ρ) = none := by
      rw [coerceTo?_localDateTime, h]
      rfl
    exact ⟨coerce_of_none (isNull_of_ne hnull) hinstant,
      coerce_of_none (isNull_of_ne hnull) hmoment⟩

/-- A literal that is a day stands for its midnight. -/
theorem denotesMoment_of_coerce_date {date : Date}
    (h : literal.coerce catalog .date = .ok (.date date)) :
    literal.DenotesMoment (.startOf date) := by
  have hnull : literal ≠ .null := by
    rintro rfl
    cases h
  obtain ⟨day, hday, heq⟩ :=
    Option.map_eq_some_iff.1 ((coerce_eq_ok_iff (isNull_of_ne hnull)).1 h)
  cases heq
  obtain ⟨text, htext, hread⟩ := Option.bind_eq_some_iff.1 hday
  rw [← moment?_eq_some_iff, moment?, htext, Option.bind_some]
  exact Moment.ofChars?_of_date hread

/-- **Dates and times mean the same under every type.** A literal is converted to an instant and to
a moment alike, or is neither, and where it is a day, it is the midnight of that day as an instant
and as a moment. No text is a moment under two layouts, so that they may be tried in any order. The
instant is the moment that is written, moved back by the offset behind it, with the minutes counted
over all days. -/
theorem coerce_dates (catalog : Catalog ρ) :
    (∀ literal : Literal,
      (∃ moment, literal.coerce catalog .dateTime = .ok (.dateTime moment) ∧
        literal.coerce catalog .localDateTime = .ok (.localDateTime moment)) ∨
      (literal.coerce catalog .dateTime = .error (.conversion literal.text "DateTime<Utc>") ∧
        literal.coerce catalog .localDateTime =
          .error (.conversion literal.text "NaiveDateTime"))) ∧
    (∀ (literal : Literal) (date : Date), literal.coerce catalog .date = .ok (.date date) →
      literal.coerce catalog .dateTime = .ok (.dateTime (.startOf date)) ∧
      literal.coerce catalog .localDateTime = .ok (.localDateTime (.startOf date))) ∧
    (∀ cs, DateLayout.ofMoments.Pairwise fun a b => a.moment? cs = none ∨ b.moment? cs = none) ∧
    (∀ layouts : List DateLayout, layouts.Perm DateLayout.ofMoments → ∀ cs,
      Moment.ofChars? cs = layouts.findSome? (·.moment? (Text.trimChars cs)) ∧
      Moment.instantOfChars? cs = layouts.findSome? (·.moment? (Text.trimChars cs))) ∧
    ∀ (literal : Literal) (moment : Moment),
      (literal.coerce catalog .dateTime = .ok (.dateTime moment) ↔
        literal.DenotesMoment moment) ∧
      (literal.coerce catalog .localDateTime = .ok (.localDateTime moment) ↔
        literal.DenotesMoment moment) := by
  refine ⟨fun literal => ?_, fun literal date h => ?_, Moment.pairwise_moment?_eq_none,
    fun layouts h cs => ?_, fun literal moment => coerce_moment_iff⟩
  · cases hmoment : literal.moment? with
    | none => exact .inr (coerce_of_no_moment hmoment)
    | some moment =>
      have hdenotes := moment?_eq_some_iff.1 hmoment
      exact .inl ⟨moment, coerce_moment_iff.1.2 hdenotes, coerce_moment_iff.2.2 hdenotes⟩
  · have hdenotes := denotesMoment_of_coerce_date h
    exact ⟨coerce_moment_iff.1.2 hdenotes, coerce_moment_iff.2.2 hdenotes⟩
  · rw [Moment.instantOfChars?_eq, Moment.findSome?_eq_ofChars? h]
    exact ⟨rfl, rfl⟩

/-- A leap day, written without leading zeros, and the evening of that day, written in a time that
is already in March. -/
theorem coerce_dates_leapDay :
    ((str " +2024- 2-29").coerce Sample.catalog .dateTime =
        .ok (.dateTime (.startOf ⟨2024, 2, 29, by decide⟩)) ∧
      (str " +2024- 2-29").coerce Sample.catalog .localDateTime =
        .ok (.localDateTime (.startOf ⟨2024, 2, 29, by decide⟩))) ∧
    (str "2024-03-01T00:30:15.5+02:00 ").coerce Sample.catalog .dateTime =
        .ok (.dateTime ⟨⟨2024, 2, 29, by decide⟩, ⟨22, 30, 15, 500000000, by decide⟩⟩) ∧
      (str "2024-03-01T00:30:15.5+02:00 ").coerce Sample.catalog .localDateTime =
        .ok (.localDateTime ⟨⟨2024, 2, 29, by decide⟩, ⟨22, 30, 15, 500000000, by decide⟩⟩) := by
  have htext : Text.trimChars "2024-03-01T00:30:15.5+02:00 ".toList =
      "2024-03-01T00:30:15.5".toList ++ "+02:00".toList := by decide
  have hhours : IsTwoDigits ['0', '2'] 2 := ⟨rfl, List.all_eq_true.1 rfl, rfl⟩
  have hminutes : IsTwoDigits ['0', '0'] 0 := ⟨rfl, List.all_eq_true.1 rfl, rfl⟩
  have hwritten : Moment.IsWritten (Text.trimChars "2024-03-01T00:30:15.5+02:00 ".toList)
      ⟨⟨2024, 3, 1, by decide⟩, ⟨0, 30, 15, 500000000, by decide⟩⟩ 120 := by
    rw [htext]
    exact .internet rfl rfl (.ahead (.intro hhours hminutes (by decide) (by decide)))
  have hdenotes : (str "2024-03-01T00:30:15.5+02:00 ").DenotesMoment
      ⟨⟨2024, 2, 29, by decide⟩, ⟨22, 30, 15, 500000000, by decide⟩⟩ :=
    ⟨_, _, 120, rfl, hwritten, ⟨by decide, rfl, rfl⟩⟩
  have hmoments := (coerce_dates Sample.catalog).2.2.2.2 (str "2024-03-01T00:30:15.5+02:00 ")
    ⟨⟨2024, 2, 29, by decide⟩, ⟨22, 30, 15, 500000000, by decide⟩⟩
  exact ⟨(coerce_dates Sample.catalog).2.1 _ ⟨2024, 2, 29, by decide⟩ (by decide),
    hmoments.1.2 hdenotes, hmoments.2.2 hdenotes⟩

end Literal

end RecordFilter
