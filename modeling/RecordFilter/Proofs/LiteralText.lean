import RecordFilter.Proofs.Numerals
import RecordFilter.Proofs.PathText
import RecordFilter.Coercion

/-!
# Literals sent as text

Whole numbers and truth values can be sent as they are or as their text. The two go different ways
to every type: a number is checked against the bounds of a kind where its text is read first, and is
converted to a float where its text is read as a decimal. They arrive at the same value or the same
error (`coerce_quoted`). No text of a number or a truth value is a date, for dates have a hyphen
behind the year (`Date.ofChars?_of_hyphenless`, `Moment.ofChars?_of_hyphenless`).
-/

namespace RecordFilter

-- Powers are the repeated products of core, whatever else is imported beside this module.
attribute [local instance (high)] instPowNat

/-! ## Dates have hyphens -/

variable {cs rest : List Char} {n : Nat}

theorem suffix_tail_of_frontNumber? {most : Nat} (h : frontNumber? most cs = some (n, rest)) :
    rest <:+ cs.tail := by
  unfold frontNumber? at h
  dsimp only at h
  split at h
  · cases h
  · next hne =>
    cases h
    rw [← List.drop_one]
    rw [List.isEmpty_iff, ← List.length_eq_zero_iff] at hne
    exact List.drop_suffix_drop_left cs (by omega)

theorem suffix_tail_of_frontDigits? {width : Nat} (hwidth : 0 < width)
    (h : frontDigits? width cs = some (n, rest)) : rest <:+ cs.tail := by
  obtain ⟨digits, rfl, hlength, -⟩ := frontDigits?_eq_some_iff.1 h
  have hne : digits ≠ [] := List.ne_nil_of_length_pos (hlength ▸ hwidth)
  rw [List.tail_append_of_ne_nil hne]
  exact List.suffix_append _ _

theorem Text.trimLeft_tail_suffix (cs : List Char) : (trimLeft cs).tail <:+ cs.tail := by
  cases cs with
  | nil => exact List.suffix_refl _
  | cons c cs =>
    cases h : isBlank c with
    | true =>
      rw [trimLeft, List.dropWhile_cons_of_pos h]
      exact (List.tail_suffix _).trans (List.dropWhile_suffix _)
    | false => simp only [trimLeft_cons_of_not h, List.suffix_refl]

/-- The items with which layouts start. -/
def LayoutItem.IsYear (item : LayoutItem) : Prop := item = .number .year 4 ∨ item = .exactly .year 4

theorem exists_of_map_eq_some {front : Option (Nat × List Char)}
    {put : Nat × List Char → DateParts} {q : DateParts}
    (h : (front.map fun read => (put read, read.2)) = some (q, rest)) :
    ∃ n, front = some (n, rest) := by
  obtain ⟨⟨n, tail⟩, hfront, heq⟩ := Option.map_eq_some_iff.1 h
  cases heq
  exact ⟨n, hfront⟩

/-- Reading a year takes up the first character at least. -/
theorem LayoutItem.IsYear.suffix_tail {item : LayoutItem} (hitem : item.IsYear)
    {p q : DateParts} (h : item.read p cs = some (q, rest)) : rest <:+ cs.tail := by
  rcases hitem with rfl | rfl
  · refine List.IsSuffix.trans ?_ (Text.trimLeft_tail_suffix cs)
    simp only [LayoutItem.read] at h
    split at h
    · next digits heq =>
      obtain ⟨n, hfront⟩ := exists_of_map_eq_some h
      rw [heq]
      exact (suffix_tail_of_frontNumber? hfront).trans (List.tail_suffix _)
    · next digits heq =>
      obtain ⟨n, hfront⟩ := exists_of_map_eq_some h
      rw [heq]
      exact (suffix_tail_of_frontNumber? hfront).trans (List.tail_suffix _)
    · obtain ⟨n, hfront⟩ := exists_of_map_eq_some h
      exact suffix_tail_of_frontNumber? hfront
  · simp only [LayoutItem.read] at h
    obtain ⟨n, hfront⟩ := exists_of_map_eq_some h
    exact suffix_tail_of_frontDigits? (by decide) hfront

namespace DateLayout

theorem read?_of_hyphenless {item : LayoutItem} (hitem : item.IsYear) {items : DateLayout}
    {p : DateParts} (h : '-' ∉ cs.tail) : read? p (item :: .mark ['-'] :: items) cs = none := by
  rw [read?]
  split
  · next q rest hread =>
    have hsuffix := hitem.suffix_tail hread
    cases rest with
    | nil => rfl
    | cons c rest =>
      have hc : ¬ ['-'].contains c = true := by
        rw [List.contains_iff_mem, List.mem_singleton]
        rintro rfl
        exact h (hsuffix.subset List.mem_cons_self)
      rw [read?, LayoutItem.read, if_neg hc]
  · rfl

theorem exists_year_of_mem {layout : DateLayout} (h : layout ∈ ofMoments) :
    ∃ item : LayoutItem, item.IsYear ∧ ∃ items, layout = item :: .mark ['-'] :: items := by
  rw [ofMoments, List.mem_cons] at h
  rcases h with rfl | h
  · exact ⟨_, .inr rfl, _, rfl⟩
  · refine ⟨_, .inl rfl, ?_⟩
    simp only [List.mem_cons, List.not_mem_nil, or_false] at h
    rcases h with rfl | rfl | rfl | rfl | rfl <;> exact ⟨_, rfl⟩

end DateLayout

/-- What has no hyphen behind the first character is no day. -/
theorem Date.ofChars?_of_hyphenless (h : '-' ∉ (Text.trimChars cs).tail) :
    Date.ofChars? cs = none := by
  rw [ofChars?, DateLayout.dateOnly, DateLayout.read?_of_hyphenless (.inl rfl) h]
  rfl

/-- What has no hyphen behind the first character is no moment. -/
theorem Moment.ofChars?_of_hyphenless (h : '-' ∉ (Text.trimChars cs).tail) :
    Moment.ofChars? cs = none := by
  rw [ofChars?, List.findSome?_eq_none_iff]
  intro layout hlayout
  obtain ⟨item, hitem, items, rfl⟩ := DateLayout.exists_year_of_mem hlayout
  rw [DateLayout.moment?, DateLayout.read?_of_hyphenless hitem h]
  rfl

/-- What has no hyphen behind the first character is no instant. -/
theorem Moment.instantOfChars?_of_hyphenless (h : '-' ∉ (Text.trimChars cs).tail) :
    Moment.instantOfChars? cs = none := by
  have hinternet : DateLayout.internet.moment? (Text.trimChars cs) = none := by
    rw [DateLayout.moment?, DateLayout.internet, DateLayout.read?_of_hyphenless (.inr rfl) h]
    rfl
  rw [instantOfChars?, hinternet]
  exact ofChars?_of_hyphenless (by rwa [Text.trimChars_trimChars])

/-! ## The text of a whole number -/

theorem mem_intChars {i : Int} {c : Char} (h : c ∈ intChars i) : c = '-' ∨ c.isDigit = true := by
  have hdigit {n : Nat} (hc : c ∈ Nat.toDigits 10 n) : c.isDigit = true :=
    Nat.isDigit_of_mem_toDigits (by decide) (by decide) hc
  unfold intChars at h
  split at h
  · exact (List.mem_cons.1 h).imp_right hdigit
  · exact .inr (hdigit h)

theorem hyphen_not_mem_tail_intChars (i : Int) : '-' ∉ (intChars i).tail := by
  have hdigits (n : Nat) : '-' ∉ Nat.toDigits 10 n := fun h =>
    absurd (Nat.isDigit_of_mem_toDigits (b := 10) (by decide) (by decide) h) (by decide)
  unfold intChars
  split
  · exact hdigits i.natAbs
  · exact fun h => hdigits i.natAbs (List.mem_of_mem_tail h)

theorem Text.trimChars_intChars (i : Int) : trimChars (intChars i) = intChars i := by
  have hblank {c : Char} (h : c ∈ intChars i) : isBlank c = false := by
    rcases mem_intChars h with rfl | hdigit
    · rfl
    · have hbounds := toNat_of_isDigit hdigit
      exact isBlank_eq_false (by omega) (by omega)
  exact trimChars_eq_self_iff.2
    ⟨fun c hc => hblank (List.mem_of_mem_head? hc), fun c hc => hblank (List.mem_of_getLast? hc)⟩

theorem Int128.trimChars_text (i : Int128) : Text.trimChars i.text.toList = intChars i.val := by
  rw [text, intText, String.toList_ofList, Text.trimChars_intChars]

theorem Int128.trim_text (i : Int128) : Text.trim i.text = i.text := by
  rw [Text.trim, trimChars_text, text, intText]

/-- A word with a letter is not the text of a number in any case. -/
theorem Int128.sameName_text (i : Int128) {word : String} (letter : Char)
    (h : letter ∈ Text.nameKey word) (hletter : letter ≠ '-' ∧ letter.isDigit = false) :
    Text.sameName i.text word = false := by
  by_contra hsame
  rw [Bool.not_eq_false, Text.sameName_iff] at hsame
  rw [← hsame, Text.nameKey, List.mem_map, Int128.text, intText, String.toList_ofList] at h
  obtain ⟨c, hc, rfl⟩ := h
  rcases mem_intChars hc with rfl | hdigit
  · exact hletter.1 rfl
  · rw [toLower_of_isDigit hdigit, hdigit] at hletter
    exact absurd hletter.2 (by decide)

/-- The text of a whole number as a decimal numeral. -/
def DecimalNumeral.ofInt (i : Int) : DecimalNumeral where
  sign := if i < 0 then .minus else .none
  whole := Nat.toDigits 10 i.natAbs
  fraction := none
  exponent := none
  areDigits := fun c hc => Nat.isDigit_of_mem_toDigits (b := 10) (n := i.natAbs) (by decide)
    (by decide) (by simpa using hc)
  nonempty := by simp
  isMark := nofun

namespace DecimalNumeral

theorem chars_ofInt (i : Int) : (ofInt i).chars = intChars i := by
  by_cases h : i < 0 <;>
    simp [intChars, ofInt, chars, h, Sign.chars, fractionChars, exponentChars]

theorem decimal_ofInt (i : Int) : (ofInt i).decimal = ⟨i < 0, i.natAbs, 0⟩ := by
  have hsign : (ofInt i).sign.isMinus = decide (i < 0) := by
    by_cases h : i < 0 <;> simp [ofInt, h, Sign.isMinus]
  rw [decimal, hsign]
  simp [ofInt]

end DecimalNumeral

namespace Binary64

/-- Whole numbers of a size that is computed are converted alike from their digits. -/
theorem ofDecimal_of_int {i : Int} (h : (Nat.toDigits 10 i.natAbs).length ≤ 400) :
    ofDecimal ⟨i < 0, i.natAbs, 0⟩ = ofInt i := by
  by_cases hi : i = 0
  · subst hi
    decide +kernel
  have hsmall : ¬ (decide (i.natAbs = 0) ||
      decide (((Nat.toDigits 10 i.natAbs).length : Int) + 0 < -400)) = true := by
    rw [Bool.or_eq_true, decide_eq_true_eq, decide_eq_true_eq]
    omega
  have hlarge : ¬ 400 < ((Nat.toDigits 10 i.natAbs).length : Int) + 0 := by omega
  unfold ofDecimal
  dsimp only
  rw [if_neg hsmall, if_neg hlarge, ofInt, Nat.pow_zero, Nat.mul_one]

theorem ofChars?_intChars (i : Int128) : ofChars? (intChars i.val) = some (ofInt i.val) := by
  have hlength : (Nat.toDigits 10 i.val.natAbs).length ≤ 39 := by
    have hlower := i.lower
    have hupper := i.upper
    have hpower : 2 ^ (127 : Nat) < 10 ^ (39 : Nat) := by decide
    exact (Nat.length_toDigits_le_iff (by decide) (by decide)).2 (by omega)
  have hread := (DecimalNumeral.ofInt i.val).ofChars?_chars
  rw [DecimalNumeral.chars_ofInt, DecimalNumeral.decimal_ofInt] at hread
  rw [ofChars?_of_decimal hread, ofDecimal_of_int (by omega)]

end Binary64

namespace Literal

variable {ρ : Type} {catalog : Catalog ρ}

/-- No date of any type is read from a text without a hyphen behind the first character. -/
theorem coerceTo?_of_hyphenless {text : String} (h : '-' ∉ (Text.trimChars text.toList).tail) :
    (str text).coerceTo? (.dateTime : FieldType ρ) = none ∧
      (str text).coerceTo? (.localDateTime : FieldType ρ) = none ∧
      (str text).coerceTo? (.date : FieldType ρ) = none := by
  have hinstant := Moment.instantOfChars?_of_hyphenless h
  have hmoment := Moment.ofChars?_of_hyphenless h
  have hdate := Date.ofChars?_of_hyphenless h
  simp only [coerceTo?, asText?, Option.bind_some, hinstant, hmoment, hdate, Option.map_none,
    and_self]

theorem coerceTo?_int (i : Int128) (type : FieldType ρ) :
    (int i).coerceTo? type = (str i.text).coerceTo? type := by
  have hhyphen : '-' ∉ (Text.trimChars i.text.toList).tail := by
    rw [i.trimChars_text]
    exact hyphen_not_mem_tail_intChars i.val
  cases type with
  | bool =>
    have htrue : Text.sameName i.text "true" = false :=
      i.sameName_text 't' (by decide) (by decide)
    have hfalse : Text.sameName i.text "false" = false :=
      i.sameName_text 'f' (by decide) (by decide)
    have hword : (str i.text).toBool? = none := by
      rw [toBool?, i.trim_text, htrue, hfalse]
      rfl
    rw [coerceTo?, coerceTo?, hword]
    rfl
  | int kind =>
    have hread : (str i.text).toInt? kind = toInt?.inKind kind i := by
      rw [toInt?, i.trimChars_text, Int128.ofChars?, readInt?_intChars, Option.bind_some,
        Int128.ofInt?_val, Option.bind_some]
    rw [coerceTo?, coerceTo?, hread]
    rfl
  | float kind =>
    have hread : (str i.text).toFloat? kind = toFloat?.atPrecision kind (.ofInt i.val) := by
      rw [toFloat?, i.trimChars_text, Binary64.ofChars?_intChars, Option.bind_some]
    rw [coerceTo?, coerceTo?, hread]
    rfl
  | string | enum | optional | list | record => rfl
  | dateTime => exact (coerceTo?_of_hyphenless hhyphen).1.symm
  | localDateTime => exact (coerceTo?_of_hyphenless hhyphen).2.1.symm
  | date => exact (coerceTo?_of_hyphenless hhyphen).2.2.symm

theorem coerceTo?_bool (b : Bool) (type : FieldType ρ) :
    (bool b).coerceTo? type = (str (bool b).text).coerceTo? type := by
  have hhyphen : '-' ∉ (Text.trimChars (bool b).text.toList).tail := by cases b <;> decide
  cases type with
  | bool =>
    have hword : (str (bool b).text).toBool? = some b := by cases b <;> decide
    rw [coerceTo?, coerceTo?, hword]
    rfl
  | int kind =>
    have hread : (str (bool b).text).toInt? kind = none := by cases b <;> rfl
    rw [coerceTo?, coerceTo?, hread]
    rfl
  | float kind =>
    have hread : (str (bool b).text).toFloat? kind = none := by cases b <;> rfl
    rw [coerceTo?, coerceTo?, hread]
    rfl
  | string | enum | optional | list | record => rfl
  | dateTime => exact (coerceTo?_of_hyphenless hhyphen).1.symm
  | localDateTime => exact (coerceTo?_of_hyphenless hhyphen).2.1.symm
  | date => exact (coerceTo?_of_hyphenless hhyphen).2.2.symm

theorem coerce_congr {literal other : Literal} {type : FieldType ρ}
    (h : literal.isNull = false) (hother : other.isNull = false) (htext : literal.text = other.text)
    (hto : literal.coerceTo? type.unwrap = other.coerceTo? type.unwrap) :
    literal.coerce catalog type = other.coerce catalog type := by
  rw [coerce, coerce, h, hother, htext, hto]

/-- **Sending a literal as text makes no difference.** A whole number or a truth value is converted
to the same value of any type as its text, or is the same error. -/
theorem coerce_quoted (catalog : Catalog ρ) (type : FieldType ρ) :
    (∀ i : Int128,
      (int i).coerce catalog type = (str (int i).text).coerce catalog type) ∧
    ∀ b : Bool, (bool b).coerce catalog type = (str (bool b).text).coerce catalog type :=
  ⟨fun i => coerce_congr rfl rfl rfl (coerceTo?_int i _),
    fun b => coerce_congr rfl rfl rfl (coerceTo?_bool b _)⟩

end Literal

end RecordFilter
