import RecordFilter.Proofs.DateReadings
import RecordFilter.Proofs.DayCount

/-!
# Moments as they are written

An internet date-time is a local moment with an offset behind it, which says how far the local time
is ahead of universal time. Its front is read by itself, whatever the offset
(`DateLayout.front?_eq_some_iff`), and the offset adds nothing but its minutes. The other moments
are universal time as they stand. So the moment that is read from a text is the written one, moved
back by the offset: `Moment.ofChars?_eq_some_iff_isWritten`.
-/

namespace RecordFilter

variable {cs rest tail : List Char} {n : Nat}

/-! ## Items in front of an offset -/

namespace LayoutItem

variable {item : LayoutItem} {p q : DateParts}

/-- The items of an internet date-time in front of its offset. -/
def isFixed : LayoutItem → Bool
  | exactly .. | mark _ | fraction => true
  | number .. | gap | offset => false

/-- A character that ends a fraction, also where none has begun. -/
def EndsFraction (c : Char) : Prop := c.isDigit = false ∧ c ≠ '.'

/-- Without a point there is no fraction. -/
theorem read_fraction_of_ne (h : ∀ digits, cs ≠ '.' :: digits) (p : DateParts) :
    fraction.read p cs = some (p, cs) := by
  rw [read]
  exact h

/-- The digits of a fraction end where something else starts. -/
theorem read_fraction_append (h : fraction.read p ('.' :: cs) = some (q, tail)) :
    (∀ c ∈ tail.head?, c.isDigit = false) ∧ ∃ digits, cs = digits ++ tail ∧
      ∀ rest : List Char, (∀ c ∈ rest.head?, c.isDigit = false) →
        fraction.read p ('.' :: digits ++ rest) = some (q, rest) := by
  simp only [read] at h
  split at h
  · cases h
  · next hne =>
    cases h
    constructor
    · intro c hc
      have hnot := List.head?_dropWhile_not Char.isDigit cs
      rwa [Option.mem_def.1 hc] at hnot
    · refine ⟨cs.takeWhile Char.isDigit, List.takeWhile_append_dropWhile.symm, ?_⟩
      intro rest hrest
      have hdigits : ∀ c ∈ cs.takeWhile Char.isDigit, c.isDigit = true :=
        List.all_eq_true.1 List.all_takeWhile
      obtain ⟨htake, hdrop⟩ := span_digits hdigits hrest
      simp only [List.cons_append, read, htake, hdrop, if_neg hne]

/-- **What an item takes up does not depend on the rest**, as long as the rest begins alike or with
something that ends a fraction. -/
theorem read_append_of_isFixed (hitem : item.isFixed = true) (h : item.read p cs = some (q, tail)) :
    ∃ used, cs = used ++ tail ∧ ∀ rest : List Char,
      (∀ c ∈ rest.head?, c ∈ tail.head? ∨ EndsFraction c) →
        item.read p (used ++ rest) = some (q, rest) := by
  cases item with
  | number | gap | offset => cases hitem
  | exactly part width =>
    rw [read] at h
    obtain ⟨⟨n, tail'⟩, hfront, heq⟩ := Option.map_eq_some_iff.1 h
    cases heq
    obtain ⟨digits, rfl, hlength, hdigits, hn⟩ := frontDigits?_eq_some_iff.1 hfront
    refine ⟨digits, rfl, fun rest _ => ?_⟩
    rw [read, frontDigits?_eq_some_iff.2 ⟨digits, rfl, hlength, hdigits, hn⟩]
    rfl
  | mark choices =>
    cases cs with
    | nil => cases h
    | cons c cs =>
      rw [read] at h
      split at h
      · next hmem =>
        cases h
        exact ⟨[c], rfl, fun rest _ => if_pos hmem⟩
      · cases h
  | fraction =>
    by_cases hpoint : ∃ digits, cs = '.' :: digits
    · obtain ⟨cs, rfl⟩ := hpoint
      obtain ⟨htail, digits, rfl, hread⟩ := read_fraction_append h
      refine ⟨'.' :: digits, rfl, fun rest hrest => hread rest fun c hc => ?_⟩
      exact (hrest c hc).elim (htail c) And.left
    · rw [not_exists] at hpoint
      rw [read_fraction_of_ne hpoint] at h
      cases h
      refine ⟨[], rfl, fun rest hrest => read_fraction_of_ne ?_ p⟩
      rintro digits rfl
      rcases hrest '.' rfl with hsame | hends
      · obtain ⟨digits, hcs⟩ := List.head?_eq_some_iff.1 hsame
        exact hpoint digits hcs
      · exact hends.2 rfl

/-- Only an offset changes how far ahead the written time is. -/
theorem east_of_read (hitem : item ≠ offset) (h : item.read p cs = some (q, rest)) :
    q.east = p.east := by
  cases stores_of_read hitem h with
  | nothing | fraction => rfl
  | number part | exactly part => cases part <;> rfl

end LayoutItem

/-! ## Offsets -/

/-- Two digits and their number. -/
structure IsTwoDigits (cs : List Char) (n : Nat) : Prop where
  length : cs.length = 2
  areDigits : ∀ c ∈ cs, c.isDigit = true
  value : Nat.ofDigitChars 10 cs 0 = n

/-- Hours and minutes of less than a day, in minutes. -/
inductive IsHoursAndMinutes : List Char → Nat → Prop
  | intro {hour minute : List Char} {hours minutes : Nat} :
    IsTwoDigits hour hours → IsTwoDigits minute minutes → hours < 24 → minutes < 60 →
      IsHoursAndMinutes (hour ++ ':' :: minute) (hours * 60 + minutes)

/-- An offset, in minutes ahead of universal time. -/
inductive IsOffset : List Char → Int → Prop
  | universal {mark : Char} : mark = 'Z' ∨ mark = 'z' → IsOffset [mark] 0
  | ahead {cs : List Char} {n : Nat} : IsHoursAndMinutes cs n → IsOffset ('+' :: cs) n
  | behind {sign : Char} {cs : List Char} {n : Nat} :
    sign = '-' ∨ sign = '−' → IsHoursAndMinutes cs n → IsOffset (sign :: cs) (-n)

theorem IsHoursAndMinutes.lt (h : IsHoursAndMinutes cs n) : n < 1440 := by
  cases h with
  | intro _ _ hhours hminutes => omega

theorem IsOffset.bounds {east : Int} (h : IsOffset cs east) : -1440 < east ∧ east < 1440 := by
  cases h with
  | universal => decide
  | ahead h | behind _ h =>
    have hlt := h.lt
    omega

theorem frontDigits?_two : frontDigits? 2 cs = some (n, rest) ↔
    ∃ digits, IsTwoDigits digits n ∧ cs = digits ++ rest := by
  rw [frontDigits?_eq_some_iff]
  constructor
  · rintro ⟨digits, hcs, hlength, hdigits, hn⟩
    exact ⟨digits, ⟨hlength, hdigits, hn⟩, hcs⟩
  · rintro ⟨digits, h, hcs⟩
    exact ⟨digits, hcs, h.length, h.areDigits, h.value⟩

theorem offsetMinutes?_eq_some_iff : offsetMinutes? cs = some (n, []) ↔ IsHoursAndMinutes cs n := by
  constructor
  · intro h
    simp only [offsetMinutes?, Option.bind_eq_bind, Option.bind_eq_some_iff, Prod.exists] at h
    obtain ⟨hours, rest, hhour, h⟩ := h
    obtain ⟨hour, hhours, rfl⟩ := frontDigits?_two.1 hhour
    split at h
    · rw [Option.bind_some] at h
      obtain ⟨⟨minutes, rest⟩, hminute, h⟩ := Option.bind_eq_some_iff.1 h
      obtain ⟨minute, hminutes, rfl⟩ := frontDigits?_two.1 hminute
      split at h
      · next hin =>
        rw [Bool.and_eq_true, decide_eq_true_iff, decide_eq_true_iff] at hin
        cases h
        rw [List.append_nil]
        exact ⟨hhours, hminutes, hin.1, hin.2⟩
      · cases h
    · cases h
  · rintro ⟨hhour, hminute, hhours, hminutes⟩
    have hlast := frontDigits?_two.2 ⟨_, hminute, (List.append_nil _).symm⟩
    simp only [offsetMinutes?, Option.bind_eq_bind, frontDigits?_two.2 ⟨_, hhour, rfl⟩,
      Option.bind_some, hlast, hhours, hminutes, decide_true, Bool.and_self, if_true]
    rfl

/-- An offset at the end of a text is read as what it is. -/
theorem LayoutItem.read_offset_eq_some_iff {p q : DateParts} (hp : p.east = 0) :
    offset.read p cs = some (q, []) ↔ ∃ east, IsOffset cs east ∧ q = { p with east := east } := by
  have hmap (sign : Int → Int) {cs : List Char} :
      ((offsetMinutes? cs).map fun read => ({ p with east := sign read.1 }, read.2)) =
        some (q, []) ↔ ∃ n : Nat, IsHoursAndMinutes cs n ∧ q = { p with east := sign n } := by
    simp only [Option.map_eq_some_iff, Prod.exists, Prod.mk.injEq, ← offsetMinutes?_eq_some_iff]
    constructor
    · rintro ⟨n, rest, hn, rfl, rfl⟩
      exact ⟨n, hn, rfl⟩
    · rintro ⟨n, hn, rfl⟩
      exact ⟨n, [], hn, rfl, rfl⟩
  have hsame : { p with east := 0 } = p := by rw [← hp]
  constructor
  · intro h
    unfold read at h
    split at h
    case h_8 =>
      cases h
      exact ⟨0, .universal (.inl rfl), hsame.symm⟩
    case h_9 =>
      cases h
      exact ⟨0, .universal (.inr rfl), hsame.symm⟩
    case h_10 =>
      obtain ⟨n, hn, hq⟩ := (hmap id).1 h
      exact ⟨_, .ahead hn, hq⟩
    case h_11 =>
      obtain ⟨n, hn, hq⟩ := (hmap fun n => -n).1 h
      exact ⟨_, .behind (.inl rfl) hn, hq⟩
    case h_12 =>
      obtain ⟨n, hn, hq⟩ := (hmap fun n => -n).1 h
      exact ⟨_, .behind (.inr rfl) hn, hq⟩
    all_goals contradiction
  · rintro ⟨east, hoffset, rfl⟩
    cases hoffset with
    | universal hmark => rcases hmark with rfl | rfl <;> rw [read, hsame]
    | ahead h => exact (hmap id).2 ⟨_, h, rfl⟩
    | behind hsign h =>
      rcases hsign with rfl | rfl
      · exact (hmap fun n => -n).2 ⟨_, h, rfl⟩
      · exact (hmap fun n => -n).2 ⟨_, h, rfl⟩

theorem IsOffset.endsFraction {east : Int} (h : IsOffset cs east) :
    ∀ c ∈ cs.head?, LayoutItem.EndsFraction c := by
  cases h with
  | universal hmark => rcases hmark with rfl | rfl <;> simp [LayoutItem.EndsFraction]
  | ahead => simp [LayoutItem.EndsFraction]
  | behind hsign => rcases hsign with rfl | rfl <;> simp [LayoutItem.EndsFraction]

/-! ## Internet date-times -/

namespace DateLayout

open LayoutItem

variable {layout : DateLayout} {p q : DateParts}

/-- Reads the items of a layout at the front of a text. -/
def front? (layout : DateLayout) (p : DateParts) (cs : List Char) :
    Option (DateParts × List Char) :=
  layout.foldlM (fun read item => item.read read.1 read.2) (p, cs)

theorem front?_cons (item : LayoutItem) (items : DateLayout) (p : DateParts) (cs : List Char) :
    front? (item :: items) p cs =
      (item.read p cs).bind fun read => front? items read.1 read.2 := rfl

theorem front?_append (a b : DateLayout) (p : DateParts) (cs : List Char) :
    front? (a ++ b) p cs = (a.front? p cs).bind fun read => b.front? read.1 read.2 :=
  List.foldlM_append

theorem read?_eq_some_iff : layout.read? p cs = some q ↔ layout.front? p cs = some (q, []) := by
  induction layout generalizing p cs with
  | nil => cases cs <;> simp [read?, front?]
  | cons item items ih =>
    rw [read?, front?_cons]
    cases item.read p cs with
    | none => simp
    | some read => exact ih

theorem front?_singleton (item : LayoutItem) (p : DateParts) (cs : List Char) :
    front? [item] p cs = item.read p cs := by
  rw [front?_cons]
  exact Option.bind_fun_some _

theorem east_of_front? (hlayout : offset ∉ layout) (h : layout.front? p cs = some (q, rest)) :
    q.east = p.east := by
  induction layout generalizing p cs with
  | nil =>
    cases h
    rfl
  | cons item items ih =>
    rw [List.mem_cons, not_or] at hlayout
    obtain ⟨⟨p', tail⟩, hread, htail⟩ := Option.bind_eq_some_iff.1 h
    rw [ih hlayout.2 htail, east_of_read (Ne.symm hlayout.1) hread]

/-- **The front of a text is read by itself**, whatever offset follows it. -/
theorem front?_eq_some_iff (hlayout : ∀ item ∈ layout, item.isFixed = true)
    (hrest : ∀ c ∈ rest.head?, EndsFraction c) :
    layout.front? p cs = some (q, rest) ↔
      ∃ front, cs = front ++ rest ∧ layout.read? p front = some q := by
  induction layout generalizing p cs with
  | nil =>
    constructor
    · intro h
      cases h
      exact ⟨[], rfl, rfl⟩
    · rintro ⟨front, rfl, hfront⟩
      cases front with
      | nil =>
        cases hfront
        rfl
      | cons => cases hfront
  | cons item items ih =>
    obtain ⟨hitem, hitems⟩ := List.forall_mem_cons.1 hlayout
    rw [front?_cons, Option.bind_eq_some_iff]
    constructor
    · rintro ⟨⟨p', tail⟩, hread, htail⟩
      obtain ⟨front, rfl, hfront⟩ := (ih hitems).1 htail
      obtain ⟨used, rfl, hused⟩ := read_append_of_isFixed hitem hread
      refine ⟨used ++ front, (List.append_assoc ..).symm, ?_⟩
      rw [read?, hused front fun c hc => .inl (List.mem_head?_append_of_mem_head? hc)]
      exact hfront
    · rintro ⟨front, rfl, hfront⟩
      rw [read?] at hfront
      split at hfront
      · next p' tail hread =>
        obtain ⟨used, rfl, hused⟩ := read_append_of_isFixed hitem hread
        refine ⟨(p', tail ++ rest), ?_, (ih hitems).2 ⟨tail, rfl, hfront⟩⟩
        rw [List.append_assoc]
        refine hused (tail ++ rest) fun c hc => ?_
        cases tail with
        | nil => exact .inr (hrest c hc)
        | cons => exact .inl hc
      · cases hfront

/-- An internet date-time without its offset. -/
def internetLocal : DateLayout :=
  strictDate ++ .mark ['T', 't', ' '] ::
    (strictMinutes ++ [.mark [':'], .exactly .second 2, .fraction])

/-- **An internet date-time** is a local one with an offset behind it. -/
theorem read?_internet_iff : internet.read? .start cs = some q ↔
    ∃ front offset p east, cs = front ++ offset ∧ internetLocal.read? .start front = some p ∧
      IsOffset offset east ∧ q = { p with east := east } := by
  have hfixed : ∀ item ∈ internetLocal, item.isFixed = true := by decide
  have hlocal : offset ∉ internetLocal := by decide
  rw [read?_eq_some_iff, show internet = internetLocal ++ [offset] from rfl, front?_append,
    Option.bind_eq_some_iff]
  simp only [Prod.exists, front?_singleton]
  constructor
  · rintro ⟨p, rest, hfront, hread⟩
    obtain ⟨east, hoffset, hq⟩ := (read_offset_eq_some_iff (east_of_front? hlocal hfront)).1 hread
    obtain ⟨front, hcs, hp⟩ := (front?_eq_some_iff hfixed hoffset.endsFraction).1 hfront
    exact ⟨front, rest, p, east, hcs, hp, hoffset, hq⟩
  · rintro ⟨front, rest, p, east, hcs, hp, hoffset, hq⟩
    have heast : p.east = 0 := east_of_front? hlocal (read?_eq_some_iff.1 hp)
    exact ⟨p, rest, (front?_eq_some_iff hfixed hoffset.endsFraction).2 ⟨front, hcs, hp⟩,
      (read_offset_eq_some_iff heast).2 ⟨east, hoffset, hq⟩⟩

end DateLayout

/-! ## Written moments -/

/-- The moment that was read as it is written, be it universal time or not. -/
def DateParts.written? (p : DateParts) : Option Moment :=
  p.date?.bind fun date => p.time?.bind fun time => some ⟨date, time⟩

theorem DateParts.moment?_eq_some_iff {p : DateParts} {m : Moment} {east : Int}
    (heast : p.east = east) (hlow : -1440 < east) (hhigh : east < 1440) :
    p.moment? = some m ↔ ∃ written, p.written? = some written ∧ written.IsAheadOf m east := by
  subst heast
  simp only [← Moment.toUniversal?_eq_some_iff hlow hhigh]
  unfold moment? written?
  cases p.date? with
  | none => simp
  | some date => cases p.time? <;> simp

/-- A text is a moment in a time that is some minutes ahead of universal time: an internet date-time
with its offset, or any other moment, which is universal time itself. -/
inductive Moment.IsWritten : List Char → Moment → Int → Prop
  | internet {front offset : List Char} {p : DateParts} {written : Moment} {east : Int} :
    DateLayout.internetLocal.read? .start front = some p → p.written? = some written →
      IsOffset offset east → IsWritten (front ++ offset) written east
  | universal {layout : DateLayout} {cs : List Char} {p : DateParts} {written : Moment} :
    layout ∈ DateLayout.ofMoments.tail → layout.read? .start cs = some p →
      p.written? = some written → IsWritten cs written 0

/-- Only the internet date-time has an offset. -/
theorem DateLayout.offset_not_mem_tail : ∀ layout ∈ ofMoments.tail, LayoutItem.offset ∉ layout := by
  decide

theorem DateLayout.moment?_eq_some_iff_of_mem_tail {layout : DateLayout}
    (hlayout : layout ∈ ofMoments.tail) {m : Moment} : layout.moment? cs = some m ↔
      ∃ p written, layout.read? .start cs = some p ∧ p.written? = some written ∧
        written.IsAheadOf m 0 := by
  have heast {p : DateParts} (h : layout.read? .start cs = some p) : p.east = 0 :=
    east_of_front? (offset_not_mem_tail layout hlayout) (read?_eq_some_iff.1 h)
  rw [moment?, Option.bind_eq_some_iff]
  refine exists_congr fun p => ?_
  constructor
  · rintro ⟨hp, hm⟩
    obtain ⟨written, hwritten, hahead⟩ :=
      (DateParts.moment?_eq_some_iff (heast hp) (by decide) (by decide)).1 hm
    exact ⟨written, hp, hwritten, hahead⟩
  · rintro ⟨written, hp, hwritten, hahead⟩
    exact ⟨hp, (DateParts.moment?_eq_some_iff (heast hp) (by decide) (by decide)).2
      ⟨written, hwritten, hahead⟩⟩

theorem DateLayout.moment?_internet_eq_some_iff {m : Moment} : internet.moment? cs = some m ↔
    ∃ front offset p written east, cs = front ++ offset ∧
      internetLocal.read? .start front = some p ∧ p.written? = some written ∧
        IsOffset offset east ∧ written.IsAheadOf m east := by
  rw [moment?, Option.bind_eq_some_iff]
  simp only [read?_internet_iff]
  constructor
  · rintro ⟨_, ⟨front, offset, p, east, hcs, hp, hoffset, rfl⟩, hm⟩
    obtain ⟨written, hwritten, hahead⟩ :=
      (DateParts.moment?_eq_some_iff rfl hoffset.bounds.1 hoffset.bounds.2).1 hm
    exact ⟨front, offset, p, written, east, hcs, hp, hwritten, hoffset, hahead⟩
  · rintro ⟨front, offset, p, written, east, hcs, hp, hwritten, hoffset, hahead⟩
    exact ⟨_, ⟨front, offset, p, east, hcs, hp, hoffset, rfl⟩,
      (DateParts.moment?_eq_some_iff rfl hoffset.bounds.1 hoffset.bounds.2).2
        ⟨written, hwritten, hahead⟩⟩

/-- **A moment that is read** is the written one moved back by its offset. -/
theorem Moment.ofChars?_eq_some_iff_isWritten {m : Moment} : ofChars? cs = some m ↔
    ∃ written east, IsWritten (Text.trimChars cs) written east ∧ written.IsAheadOf m east := by
  rw [ofChars?_eq_some_iff]
  generalize Text.trimChars cs = text
  constructor
  · rintro ⟨layout, hlayout, hm⟩
    rcases List.mem_cons.1 hlayout with rfl | htail
    · obtain ⟨front, offset, p, written, east, rfl, hp, hwritten, hoffset, hahead⟩ :=
        DateLayout.moment?_internet_eq_some_iff.1 hm
      exact ⟨written, east, .internet hp hwritten hoffset, hahead⟩
    · obtain ⟨p, written, hp, hwritten, hahead⟩ :=
        (DateLayout.moment?_eq_some_iff_of_mem_tail htail).1 hm
      exact ⟨written, 0, .universal htail hp hwritten, hahead⟩
  · rintro ⟨written, east, hwritten, hahead⟩
    cases hwritten with
    | internet hp hwritten hoffset =>
      exact ⟨_, List.mem_cons_self, DateLayout.moment?_internet_eq_some_iff.2
        ⟨_, _, _, written, east, rfl, hp, hwritten, hoffset, hahead⟩⟩
    | universal htail hp hwritten =>
      exact ⟨_, List.mem_of_mem_tail htail, (DateLayout.moment?_eq_some_iff_of_mem_tail htail).2
        ⟨_, written, hp, hwritten, hahead⟩⟩

end RecordFilter
