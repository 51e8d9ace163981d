import Mathlib.Data.List.Forall2
import RecordFilter.Proofs.DayCount
import RecordFilter.Proofs.LiteralText

/-!
# Dates and times have one reading

A moment can be written under six layouts, which are tried one after the other. No text fits two of
them (`DateLayout.pairwise_apart`). All six begin with a date, of which every layout leaves the same
rest (`LayoutItem.Alike`), and what follows the date tells them apart: nothing, a `T`, or blanks in
front of an hour. Behind the minutes it is again nothing, or a colon, and only the internet
date-time goes on with an offset.

So the order of trying does not matter (`Moment.findSome?_eq_ofChars?`), instants are read as moments
are (`Moment.instantOfChars?_eq`), and a day is read as its midnight (`Moment.ofChars?_of_date`).
-/

namespace RecordFilter

/-! ## What an item leaves -/

variable {cs rest rest' : List Char} {n : Nat}

theorem exists_digit_of_frontNumber? {most : Nat} (h : frontNumber? most cs = some (n, rest)) :
    ∃ d tail, cs = d :: tail ∧ d.isDigit = true := by
  cases cs with
  | nil => exact absurd h (by simp [frontNumber?])
  | cons d tail =>
    refine ⟨d, tail, rfl, ?_⟩
    by_contra hd
    simp [frontNumber?, hd] at h

/-- Just as many digits as wanted are as many as wanted at most. -/
theorem frontNumber?_of_frontDigits? {width : Nat} (hwidth : 0 < width)
    (h : frontDigits? width cs = some (n, rest)) : frontNumber? width cs = some (n, rest) := by
  obtain ⟨digits, rfl, rfl, hdigits, rfl⟩ := frontDigits?_eq_some_iff.1 h
  have hne : ¬ digits.isEmpty = true := by
    rw [List.isEmpty_iff, ← List.length_eq_zero_iff]
    omega
  unfold frontNumber?
  rw [List.takeWhile_append_of_pos hdigits, List.take_left]
  dsimp only
  rw [if_neg hne, List.drop_left]

theorem isBlank_of_isDigit {d : Char} (h : d.isDigit = true) : Text.isBlank d = false := by
  have hbounds := toNat_of_isDigit h
  exact Text.isBlank_eq_false (by omega) (by omega)

namespace LayoutItem

variable {item other : LayoutItem} {p q : DateParts} {part : DatePart} {width : Nat}
  {choices : List Char}

/-- An item takes up the front of a text and leaves the rest. -/
def Leaves (item : LayoutItem) (cs rest : List Char) : Prop :=
  ∃ p q, item.read p cs = some (q, rest)

/-- What was read before does not matter to what an item leaves. -/
theorem map_snd_read (item : LayoutItem) (p q : DateParts) (cs : List Char) :
    (item.read p cs).map Prod.snd = (item.read q cs).map Prod.snd := by
  fun_cases read p item cs with
  | case9 cs digits h => rw [read, if_pos h]
  | case10 cs digits h => rw [read, if_neg h]; rfl
  | _ => simp_all [read, Option.map_map, Function.comp_def]

theorem Leaves.unique (h : item.Leaves cs rest) (h' : item.Leaves cs rest') : rest = rest' := by
  obtain ⟨p, q, hread⟩ := h
  obtain ⟨p', q', hread'⟩ := h'
  have hsame := map_snd_read item p p' cs
  rw [hread, hread'] at hsame
  exact Option.some.inj hsame

theorem leaves_mark_iff : (mark choices).Leaves cs rest ↔ ∃ c ∈ choices, cs = c :: rest := by
  constructor
  · rintro ⟨p, q, hread⟩
    cases cs with
    | nil => cases hread
    | cons c cs =>
      rw [read] at hread
      split at hread
      · next hmem =>
        cases hread
        exact ⟨c, List.contains_iff_mem.1 hmem, rfl⟩
      · cases hread
  · rintro ⟨c, hc, rfl⟩
    exact ⟨.start, .start, by rw [read, if_pos (List.contains_iff_mem.2 hc)]⟩

theorem leaves_gap_iff : gap.Leaves cs rest ↔ rest = Text.trimLeft cs := by
  constructor
  · rintro ⟨p, q, hread⟩
    cases hread
    rfl
  · rintro rfl
    exact ⟨.start, .start, rfl⟩

theorem leaves_exactly_iff :
    (exactly part width).Leaves cs rest ↔ ∃ n, frontDigits? width cs = some (n, rest) := by
  constructor
  · rintro ⟨p, q, hread⟩
    exact exists_of_map_eq_some hread
  · rintro ⟨n, hfront⟩
    exact ⟨.start, _, by rw [read, hfront]; rfl⟩

theorem read_number_of_ne (h : part ≠ .year) (p : DateParts) (cs : List Char) :
    (number part width).read p cs =
      (frontNumber? width (Text.trimLeft cs)).map fun (n, cs) => (p.put part n, cs) := by
  rw [read]
  · exact fun _ hyear => absurd hyear h
  · exact fun _ hyear => absurd hyear h

/-- Any number but a year may stand behind blanks. -/
theorem leaves_number_iff (h : part ≠ .year) : (number part width).Leaves cs rest ↔
    ∃ n, frontNumber? width (Text.trimLeft cs) = some (n, rest) := by
  constructor
  · rintro ⟨p, q, hread⟩
    rw [read_number_of_ne h] at hread
    exact exists_of_map_eq_some hread
  · rintro ⟨n, hfront⟩
    exact ⟨.start, _, by rw [read_number_of_ne h, hfront]; rfl⟩

/-- A year that starts with a digit is read as any other number. -/
theorem leaves_number_of_isDigit {d : Char} {tail : List Char} (hd : d.isDigit = true)
    (h : (number part width).Leaves (d :: tail) rest) :
    ∃ n, frontNumber? width (d :: tail) = some (n, rest) := by
  obtain ⟨p, q, hread⟩ := h
  have hsign := isDigit_ne_sign hd
  simp only [read, Text.trimLeft_cons_of_not (isBlank_of_isDigit hd)] at hread
  split at hread
  · next heq => exact absurd (List.cons.inj heq).1 hsign.1
  · next heq => exact absurd (List.cons.inj heq).1 hsign.2
  · exact exists_of_map_eq_some hread

theorem not_leaves_mark_nil : ¬ (mark choices).Leaves [] rest := by
  rw [leaves_mark_iff]
  rintro ⟨c, -, heq⟩
  cases heq

theorem not_leaves_offset_nil : ¬ offset.Leaves [] rest := by
  rintro ⟨p, q, hread⟩
  cases hread

/-- A number starts with a digit, but for blanks. -/
theorem not_leaves_number (h : part ≠ .year) {c : Char} (hblank : Text.isBlank c = false)
    (hdigit : c.isDigit = false) {tail : List Char} :
    ¬ (number part width).Leaves (c :: tail) rest := by
  rw [leaves_number_iff h, Text.trimLeft_cons_of_not hblank]
  rintro ⟨n, hfront⟩
  obtain ⟨d, tail', heq, hd⟩ := exists_digit_of_frontNumber? hfront
  rw [← (List.cons.inj heq).1, hdigit] at hd
  cases hd

/-! ## What an item stores -/

/-- What an item but an offset may store of what it reads. -/
inductive Stores : LayoutItem → DateParts → DateParts → Prop
  | nothing (item : LayoutItem) (p : DateParts) : Stores item p p
  | number (part : DatePart) (width : Nat) (p : DateParts) (n : Int) :
    Stores (number part width) p (p.put part n)
  | exactly (part : DatePart) (width : Nat) (p : DateParts) (n : Int) :
    Stores (exactly part width) p (p.put part n)
  | fraction (p : DateParts) (n : Nat) : Stores fraction p { p with nanosecond := n }

theorem stores_of_read (hitem : item ≠ offset) (h : item.read p cs = some (q, rest)) :
    item.Stores p q := by
  unfold read at h
  split at h
  case h_1 =>
    split at h
    all_goals
      obtain ⟨_, -, heq⟩ := Option.map_eq_some_iff.1 h
      cases heq
      exact .number ..
  case h_2 =>
    obtain ⟨_, -, heq⟩ := Option.map_eq_some_iff.1 h
    cases heq
    exact .exactly ..
  case h_3 =>
    split at h
    · cases h
      exact .nothing ..
    · cases h
  case h_4 => cases h
  case h_5 | h_7 =>
    cases h
    exact .nothing ..
  case h_6 =>
    dsimp only at h
    split at h
    · cases h
    · cases h
      exact .fraction ..
  all_goals exact absurd rfl hitem

/-! ## Items that leave the same -/

/-- Where both items take up the front of a text, they leave the same rest. -/
def Alike (item other : LayoutItem) : Prop :=
  ∀ cs rest rest', item.Leaves cs rest → other.Leaves cs rest' → rest = rest'

theorem Alike.refl (item : LayoutItem) : item.Alike item := fun _ _ _ h h' => h.unique h'

theorem alike_mark (choices others : List Char) : (mark choices).Alike (mark others) := by
  intro cs rest rest' h h'
  obtain ⟨c, -, rfl⟩ := leaves_mark_iff.1 h
  obtain ⟨d, -, heq⟩ := leaves_mark_iff.1 h'
  exact (List.cons.inj heq).2

/-- A number of fixed width leaves what the number without leading zeros leaves. -/
theorem alike_exactly (part : DatePart) (hwidth : 0 < width) :
    (exactly part width).Alike (number part width) := by
  intro cs rest rest' h h'
  obtain ⟨n, hfront⟩ := leaves_exactly_iff.1 h
  have hnumber := frontNumber?_of_frontDigits? hwidth hfront
  obtain ⟨d, tail, rfl, hd⟩ := exists_digit_of_frontNumber? hnumber
  obtain ⟨m, hother⟩ := leaves_number_of_isDigit hd h'
  rw [hnumber, Option.some.injEq, Prod.mk.injEq] at hother
  exact hother.2

end LayoutItem

/-! ## Texts that fit a layout -/

namespace DateLayout

open LayoutItem

/-- The items of a layout take up a text one after the other. -/
def Fits : DateLayout → List Char → Prop
  | [], cs => cs = []
  | item :: items, cs => ∃ rest, item.Leaves cs rest ∧ Fits items rest

theorem fits_of_read? {layout : DateLayout} {p q : DateParts} {cs : List Char}
    (h : layout.read? p cs = some q) : Fits layout cs := by
  induction layout generalizing p cs with
  | nil =>
    cases cs with
    | nil => rfl
    | cons c cs => cases h
  | cons item items ih =>
    rw [read?] at h
    split at h
    · next p' rest hread => exact ⟨rest, ⟨p, p', hread⟩, ih h⟩
    · cases h

/-- No text fits both layouts. -/
def Apart (a b : DateLayout) : Prop := ∀ cs, Fits a cs → ¬ Fits b cs

theorem Apart.symm {a b : DateLayout} (h : Apart a b) : Apart b a := fun cs hb ha => h cs ha hb

/-- Layouts are apart if they are behind items that leave the same. -/
theorem Apart.behind {items others a b : DateLayout} (h : List.Forall₂ Alike items others)
    (hab : Apart a b) : Apart (items ++ a) (others ++ b) := by
  induction h with
  | nil => exact hab
  | cons halike _ ih =>
    rintro cs ⟨rest, hleaves, hfits⟩ ⟨rest', hleaves', hfits'⟩
    rw [← halike cs rest rest' hleaves hleaves'] at hfits'
    exact ih rest hfits hfits'

/-- Layouts that go on in different ways behind the same items. -/
theorem Apart.behind_same (items : DateLayout) {a b : DateLayout} (hab : Apart a b) :
    Apart (items ++ a) (items ++ b) :=
  hab.behind (List.forall₂_same.2 fun item _ => .refl item)

theorem apart_nil {item : LayoutItem} (h : ∀ rest, ¬ item.Leaves [] rest) (items : DateLayout) :
    Apart (item :: items) [] := by
  rintro cs ⟨rest, hleaves, -⟩ rfl
  exact h rest hleaves

/-- Blanks in front of a number make no difference to it. -/
theorem fits_gap_iff {part : DatePart} (hpart : part ≠ .year) {width : Nat} {items : DateLayout}
    {cs : List Char} :
    Fits (.gap :: .number part width :: items) cs ↔ Fits (.number part width :: items) cs := by
  simp only [Fits, leaves_gap_iff, exists_eq_left, leaves_number_iff hpart,
    Text.trimLeft_trimLeft]

/-! ## The six layouts -/

/-- What follows the date in a moment with seconds, behind the minutes. -/
def behindMinutes : DateLayout := [.mark [':'], .number .second 2, .fraction]

/-- The same in an internet date-time. -/
def strictlyBehindMinutes : DateLayout :=
  [.mark [':'], .exactly .second 2, .fraction, .offset]

/-- The date of an internet date-time. -/
def strictDate : DateLayout :=
  [.exactly .year 4, .mark ['-'], .exactly .month 2, .mark ['-'], .exactly .day 2]

def strictMinutes : DateLayout := [.exactly .hour 2, .mark [':'], .exactly .minute 2]

/-- What follows the date in an internet date-time. -/
def strictClock : DateLayout :=
  .mark ['T', 't', ' '] :: (strictMinutes ++ strictlyBehindMinutes)

/-- What follows the date in the other moments. -/
def clocks : List DateLayout :=
  [.mark ['T'] :: (minutes ++ behindMinutes), .gap :: (minutes ++ behindMinutes),
    .mark ['T'] :: (minutes ++ []), .gap :: (minutes ++ []), []]

theorem ofMoments_eq :
    ofMoments = (strictDate ++ strictClock) :: clocks.map (dateOnly ++ ·) := rfl

theorem alike_strictDate : List.Forall₂ Alike strictDate dateOnly :=
  .cons (alike_exactly .year (by decide)) <| .cons (alike_mark _ _) <|
    .cons (alike_exactly .month (by decide)) <| .cons (alike_mark _ _) <|
      .cons (alike_exactly .day (by decide)) .nil

theorem alike_strictMinutes : List.Forall₂ Alike strictMinutes minutes :=
  .cons (alike_exactly .hour (by decide)) <| .cons (alike_mark _ _) <|
    .cons (alike_exactly .minute (by decide)) .nil

/-- Behind the minutes stands an offset where seconds and a fraction may be all, and a colon where
nothing may be. -/
theorem apart_strictlyBehindMinutes {b : DateLayout} (hb : b = behindMinutes ∨ b = []) :
    Apart strictlyBehindMinutes b := by
  rcases hb with rfl | rfl
  · have hseconds : List.Forall₂ Alike [.mark [':'], .exactly .second 2, .fraction]
        [.mark [':'], .number .second 2, .fraction] :=
      .cons (.refl _) (.cons (alike_exactly .second (by decide)) (.cons (.refl _) .nil))
    exact (apart_nil (fun _ => not_leaves_offset_nil) []).behind hseconds
  · exact apart_nil (fun _ => not_leaves_mark_nil) _

/-- No time begins with a letter, not even behind blanks. -/
theorem not_fits_gap {c : Char} (hblank : Text.isBlank c = false) (hdigit : c.isDigit = false)
    {cs : List Char} {b : DateLayout} : ¬ Fits (.gap :: (minutes ++ b)) (c :: cs) := by
  intro hfits
  obtain ⟨rest, hleaves, -⟩ := (fits_gap_iff (by decide)).1 hfits
  exact not_leaves_number (by decide) hblank hdigit hleaves

theorem apart_letter_gap (a b : DateLayout) :
    Apart (.mark ['T'] :: a) (.gap :: (minutes ++ b)) := by
  rintro cs ⟨rest, hleaves, -⟩
  obtain ⟨c, hc, rfl⟩ := leaves_mark_iff.1 hleaves
  rw [List.mem_singleton] at hc
  subst hc
  exact not_fits_gap rfl rfl

/-- A single space in front of the hour is one of any number of blanks. -/
theorem apart_strict_gap {a b : DateLayout} (h : Apart (strictMinutes ++ a) (minutes ++ b)) :
    Apart (.mark ['T', 't', ' '] :: (strictMinutes ++ a)) (.gap :: (minutes ++ b)) := by
  rintro cs ⟨rest, hleaves, hstrict⟩ hfits
  obtain ⟨c, hc, rfl⟩ := leaves_mark_iff.1 hleaves
  simp only [List.mem_cons, List.not_mem_nil, or_false] at hc
  rcases hc with rfl | rfl | rfl
  · exact not_fits_gap rfl rfl hfits
  · exact not_fits_gap rfl rfl hfits
  · obtain ⟨rest', hleaves', hfits'⟩ := hfits
    rw [leaves_gap_iff] at hleaves'
    -- The space is dropped with the blanks, if there are more of them.
    have hdrop : rest' = Text.trimLeft rest := hleaves'
    exact h rest hstrict ((fits_gap_iff (by decide)).1 ⟨rest', leaves_gap_iff.2 hdrop, hfits'⟩)

theorem apart_strictClock {clock : DateLayout} (h : clock ∈ clocks) : Apart strictClock clock := by
  have hminutes {b : DateLayout} (hb : b = behindMinutes ∨ b = []) :
      Apart (strictMinutes ++ strictlyBehindMinutes) (minutes ++ b) :=
    (apart_strictlyBehindMinutes hb).behind alike_strictMinutes
  have hmarks {b : DateLayout} (hb : b = behindMinutes ∨ b = []) :
      Apart strictClock (.mark ['T'] :: (minutes ++ b)) :=
    (hminutes hb).behind (.cons (alike_mark _ _) .nil)
  simp only [clocks, List.mem_cons, List.not_mem_nil, or_false] at h
  rcases h with rfl | rfl | rfl | rfl | rfl
  · exact hmarks (.inl rfl)
  · exact apart_strict_gap (hminutes (.inl rfl))
  · exact hmarks (.inr rfl)
  · exact apart_strict_gap (hminutes (.inr rfl))
  · exact apart_nil (fun _ => not_leaves_mark_nil) _

theorem pairwise_clocks : clocks.Pairwise Apart := by
  have hsame (item : LayoutItem) : Apart (item :: (minutes ++ behindMinutes))
      (item :: (minutes ++ [])) :=
    (apart_nil (fun _ => not_leaves_mark_nil) _).behind_same (item :: minutes)
  have hmark (a : DateLayout) : Apart (.mark ['T'] :: a) [] :=
    apart_nil (fun _ => not_leaves_mark_nil) a
  have hgap (b : DateLayout) : Apart (.gap :: (minutes ++ b)) [] := by
    rintro cs hfits rfl
    obtain ⟨rest, hleaves, -⟩ := (fits_gap_iff (by decide)).1 hfits
    obtain ⟨n, hfront⟩ := (leaves_number_iff (by decide)).1 hleaves
    obtain ⟨d, tail, heq, -⟩ := exists_digit_of_frontNumber? hfront
    cases heq
  refine .cons ?_ (.cons ?_ (.cons ?_ (.cons ?_ (.cons ?_ .nil))))
  · simp only [List.forall_mem_cons]
    exact ⟨apart_letter_gap _ _, hsame _, apart_letter_gap _ _, hmark _, nofun⟩
  · simp only [List.forall_mem_cons]
    exact ⟨(apart_letter_gap _ _).symm, hsame _, hgap _, nofun⟩
  · simp only [List.forall_mem_cons]
    exact ⟨apart_letter_gap _ _, hmark _, nofun⟩
  · simp only [List.forall_mem_cons]
    exact ⟨hgap _, nofun⟩
  · nofun

/-- **No text fits two layouts.** -/
theorem pairwise_apart : ofMoments.Pairwise Apart := by
  rw [ofMoments_eq, List.pairwise_cons, List.forall_mem_map, List.pairwise_map]
  exact ⟨fun clock h => (apart_strictClock h).behind alike_strictDate,
    pairwise_clocks.imp fun h => h.behind_same dateOnly⟩

theorem Apart.moment?_eq_none {a b : DateLayout} (h : Apart a b) (cs : List Char) :
    a.moment? cs = none ∨ b.moment? cs = none := by
  by_contra hboth
  rw [not_or] at hboth
  obtain ⟨m, hm⟩ := Option.ne_none_iff_exists'.1 hboth.1
  obtain ⟨m', hm'⟩ := Option.ne_none_iff_exists'.1 hboth.2
  obtain ⟨q, hq, -⟩ := Option.bind_eq_some_iff.1 hm
  obtain ⟨q', hq', -⟩ := Option.bind_eq_some_iff.1 hm'
  exact h cs (fits_of_read? hq) (fits_of_read? hq')

end DateLayout

/-! ## The order of trying -/

/-- Where at most one element gives something, it does not matter which is tried first. -/
theorem findSome?_eq_some_iff_of_pairwise {α β : Type} {f : α → Option β} {l : List α}
    (h : l.Pairwise fun a b => f a = none ∨ f b = none) {b : β} :
    l.findSome? f = some b ↔ ∃ a ∈ l, f a = some b := by
  induction l with
  | nil => simp
  | cons a l ih =>
    obtain ⟨hfirst, hrest⟩ := List.pairwise_cons.1 h
    cases ha : f a with
    | none => simp [ha, ih hrest]
    | some c =>
      have hnone : ∀ x ∈ l, f x = none := fun x hx => by simpa [ha] using hfirst x hx
      simp only [List.findSome?_cons, ha, Option.some.injEq, List.mem_cons, exists_eq_or_imp]
      refine ⟨.inl, fun hb => hb.resolve_right ?_⟩
      rintro ⟨x, hx, hxb⟩
      rw [hnone x hx] at hxb
      cases hxb

namespace Moment

theorem pairwise_moment?_eq_none (cs : List Char) :
    DateLayout.ofMoments.Pairwise fun a b => a.moment? cs = none ∨ b.moment? cs = none :=
  DateLayout.pairwise_apart.imp fun h => h.moment?_eq_none cs

theorem ofChars?_eq_some_iff {cs : List Char} {moment : Moment} :
    ofChars? cs = some moment ↔
      ∃ layout ∈ DateLayout.ofMoments, layout.moment? (Text.trimChars cs) = some moment :=
  findSome?_eq_some_iff_of_pairwise (pairwise_moment?_eq_none _)

theorem findSome?_eq_ofChars? {layouts : List DateLayout} (h : layouts.Perm DateLayout.ofMoments)
    (cs : List Char) : layouts.findSome? (·.moment? (Text.trimChars cs)) = ofChars? cs := by
  ext moment
  have hpairwise :=
    (h.pairwise_iff fun hab => hab.symm).2 (pairwise_moment?_eq_none (Text.trimChars cs))
  rw [findSome?_eq_some_iff_of_pairwise hpairwise, ofChars?_eq_some_iff]
  simp only [h.mem_iff]

/-- Trying the internet date-time first and then everything again changes nothing. -/
theorem instantOfChars?_eq (cs : List Char) : instantOfChars? cs = ofChars? cs := by
  rw [instantOfChars?, ofChars?, ofChars?, Text.trimChars_trimChars, DateLayout.ofMoments,
    List.findSome?_cons]
  cases DateLayout.internet.moment? (Text.trimChars cs) <;> rfl

end Moment

/-! ## Days -/

/-- No time was read. -/
def DateParts.IsMidnight (p : DateParts) : Prop :=
  p.hour = 0 ∧ p.minute = 0 ∧ p.second = 0 ∧ p.nanosecond = 0 ∧ p.east = 0

/-- A day that was read without a time stands for its midnight. -/
theorem DateParts.IsMidnight.moment?_eq {p : DateParts} (h : p.IsMidnight) :
    p.moment? = p.date?.map .startOf := by
  obtain ⟨year, month, day, hour, minute, second, nanosecond, east⟩ := p
  obtain ⟨rfl, rfl, rfl, rfl, rfl⟩ := h
  unfold moment?
  cases date? _ with
  | none => rfl
  | some date => exact Moment.toUniversal?_zero (.startOf date)

/-- The parts of a day. -/
def DatePart.IsOfDay (part : DatePart) : Prop := part = .year ∨ part = .month ∨ part = .day

theorem DateParts.IsMidnight.put {p : DateParts} (h : p.IsMidnight) {part : DatePart}
    (hpart : part.IsOfDay) (n : Int) : (p.put part n).IsMidnight := by
  rcases hpart with rfl | rfl | rfl <;> exact h

/-- The items of a date. -/
def LayoutItem.IsOfDate (item : LayoutItem) : Prop :=
  (∃ part width, part.IsOfDay ∧ item = .number part width) ∨ ∃ choices, item = .mark choices

/-- Reading a date reads no time. -/
theorem LayoutItem.isMidnight_of_read {item : LayoutItem} (hitem : item.IsOfDate)
    {p q : DateParts} (hp : p.IsMidnight) (h : item.read p cs = some (q, rest)) :
    q.IsMidnight := by
  rcases hitem with ⟨part, width, hpart, rfl⟩ | ⟨choices, rfl⟩
  · cases stores_of_read (by nofun) h with
    | nothing => exact hp
    | number _ _ _ n => exact hp.put hpart n
  · cases stores_of_read (by nofun) h with
    | nothing => exact hp

namespace DateLayout

theorem isMidnight_of_read? {layout : DateLayout} (hlayout : ∀ item ∈ layout, item.IsOfDate)
    {p q : DateParts} (hp : p.IsMidnight) {cs : List Char} (h : layout.read? p cs = some q) :
    q.IsMidnight := by
  induction layout generalizing p cs with
  | nil =>
    cases cs with
    | nil => cases h; exact hp
    | cons c cs => cases h
  | cons item items ih =>
    obtain ⟨hitem, hitems⟩ := List.forall_mem_cons.1 hlayout
    rw [read?] at h
    split at h
    · next p' rest hread => exact ih hitems (LayoutItem.isMidnight_of_read hitem hp hread) h
    · cases h

theorem isOfDate_of_mem_dateOnly : ∀ item ∈ dateOnly, item.IsOfDate := by
  simp only [dateOnly, List.forall_mem_cons]
  exact ⟨.inl ⟨.year, 4, .inl rfl, rfl⟩, .inr ⟨_, rfl⟩, .inl ⟨.month, 2, .inr (.inl rfl), rfl⟩,
    .inr ⟨_, rfl⟩, .inl ⟨.day, 2, .inr (.inr rfl), rfl⟩, List.forall_mem_nil _⟩

/-- As a moment a date is the midnight of its day. -/
theorem moment?_dateOnly (cs : List Char) :
    dateOnly.moment? cs = ((dateOnly.read? .start cs).bind DateParts.date?).map .startOf := by
  cases hread : dateOnly.read? .start cs with
  | none => rw [moment?, hread]; rfl
  | some q =>
    have hq := isMidnight_of_read? isOfDate_of_mem_dateOnly ⟨rfl, rfl, rfl, rfl, rfl⟩ hread
    rw [moment?, hread, Option.bind_some, Option.bind_some, hq.moment?_eq]

end DateLayout

theorem Moment.ofChars?_of_date {date : Date} (h : Date.ofChars? cs = some date) :
    Moment.ofChars? cs = some (.startOf date) := by
  refine ofChars?_eq_some_iff.2 ⟨DateLayout.dateOnly, by simp [DateLayout.ofMoments], ?_⟩
  rw [Date.ofChars?] at h
  rw [DateLayout.moment?_dateOnly, h, Option.map_some]

end RecordFilter
