import Mathlib.Algebra.Order.Field.Power
import RecordFilter.Proofs.ExactValue
import RecordFilter.Number.Decimal
import RecordFilter.Text.Name

/-!
# Numerals

A numeral is the text of a number: digits with a sign or without (`IntNumeral`), also with a point
and an exponent (`DecimalNumeral`). What is read as a whole number is exactly the first kind
(`readInt?_eq_some_iff`), and a decimal numeral is read as the decimal that it stands for
(`DecimalNumeral.ofChars?_chars`), of which `isNearestTo_ofDecimal` gives the nearest binary64
number. Decimals far beyond the format are cut short there, which changes nothing.
-/

namespace RecordFilter

-- Powers are the repeated products of core, whatever else is imported beside this module.
attribute [local instance (high)] instPowNat

/-! ## Whole numbers -/

/-- The sign in front of a numeral, if it has one. -/
inductive Sign where
  | none
  | plus
  | minus
deriving DecidableEq

namespace Sign

def chars : Sign → List Char
  | none => []
  | plus => ['+']
  | minus => ['-']

def isMinus : Sign → Bool
  | minus => true
  | _ => false

end Sign

/-- Digits with a sign or without. -/
structure IntNumeral where
  sign : Sign
  digits : List Char
  areDigits : ∀ c ∈ digits, c.isDigit = true
  nonempty : digits ≠ []

namespace IntNumeral

def chars (t : IntNumeral) : List Char := t.sign.chars ++ t.digits

/-- The whole number that a numeral stands for. -/
def value (t : IntNumeral) : Int :=
  if t.sign.isMinus then -(Nat.ofDigitChars 10 t.digits 0 : Int) else Nat.ofDigitChars 10 t.digits 0

end IntNumeral

theorem isDigit_ne_sign {c : Char} (h : c.isDigit = true) : c ≠ '-' ∧ c ≠ '+' := by
  constructor <;> rintro rfl <;> exact absurd h (by decide)

theorem readNat?_eq_some_iff {cs : List Char} {n : Nat} :
    readNat? cs = some n ↔
      cs ≠ [] ∧ (∀ c ∈ cs, c.isDigit = true) ∧ Nat.ofDigitChars 10 cs 0 = n := by
  unfold readNat?
  split
  · next hempty => simp [List.isEmpty_iff.1 hempty]
  · next hne =>
    rw [List.isEmpty_iff] at hne
    split
    · next hall =>
      rw [List.all_eq_true] at hall
      rw [Option.some_inj]
      exact ⟨fun h => ⟨hne, hall, h⟩, fun h => h.2.2⟩
    · next hall =>
      rw [List.all_eq_true] at hall
      exact ⟨nofun, fun h => absurd h.2.1 hall⟩

/-- **What is read as a whole number** is the text of a numeral that stands for it. -/
theorem readInt?_eq_some_iff {cs : List Char} {n : Int} :
    readInt? cs = some n ↔ ∃ t : IntNumeral, t.chars = cs ∧ t.value = n := by
  constructor
  · intro h
    unfold readInt? at h
    split at h
    · next cs =>
      obtain ⟨m, hm, rfl⟩ := Option.map_eq_some_iff.1 h
      obtain ⟨hne, hdigits, rfl⟩ := readNat?_eq_some_iff.1 hm
      exact ⟨⟨.minus, cs, hdigits, hne⟩, rfl, rfl⟩
    · next cs =>
      obtain ⟨m, hm, rfl⟩ := Option.map_eq_some_iff.1 h
      obtain ⟨hne, hdigits, rfl⟩ := readNat?_eq_some_iff.1 hm
      exact ⟨⟨.plus, cs, hdigits, hne⟩, rfl, rfl⟩
    · obtain ⟨m, hm, rfl⟩ := Option.map_eq_some_iff.1 h
      obtain ⟨hne, hdigits, rfl⟩ := readNat?_eq_some_iff.1 hm
      exact ⟨⟨.none, cs, hdigits, hne⟩, rfl, rfl⟩
  · rintro ⟨⟨sign, digits, hdigits, hne⟩, rfl, rfl⟩
    have hread : readNat? digits = some (Nat.ofDigitChars 10 digits 0) :=
      readNat?_eq_some_iff.2 ⟨hne, hdigits, rfl⟩
    cases sign with
    | minus =>
      show (readNat? digits).map (fun n : Nat => -(n : Int)) = _
      rw [hread]
      rfl
    | plus =>
      show (readNat? digits).map Int.ofNat = _
      rw [hread]
      rfl
    | none =>
      obtain ⟨c, rest, rfl⟩ := List.exists_cons_of_ne_nil hne
      show readInt? (c :: rest) = _
      rw [readInt?_of_isDigit (hdigits c List.mem_cons_self), hread]
      rfl

/-! ## Decimals -/

/-- The exact value of a decimal. -/
def Decimal.value (d : Decimal) : ℚ :=
  (if d.negative then -1 else 1) * (d.coefficient * 10 ^ d.exponent)

/-- Digits with a point before, between, after or nowhere, a sign or none, and an exponent or none.
-/
structure DecimalNumeral where
  sign : Sign
  whole : List Char
  /-- The digits after the point, if there is one. -/
  fraction : Option (List Char)
  /-- The mark of the exponent and the exponent, if there is one. -/
  exponent : Option (Char × IntNumeral)
  areDigits : ∀ c ∈ whole ++ fraction.getD [], c.isDigit = true
  nonempty : whole ++ fraction.getD [] ≠ []
  isMark : ∀ e ∈ exponent, e.1 = 'e' ∨ e.1 = 'E'

namespace DecimalNumeral

def fractionChars : Option (List Char) → List Char
  | none => []
  | some digits => '.' :: digits

def exponentChars : Option (Char × IntNumeral) → List Char
  | none => []
  | some (mark, numeral) => mark :: numeral.chars

def chars (t : DecimalNumeral) : List Char :=
  t.sign.chars ++ (t.whole ++ (fractionChars t.fraction ++ exponentChars t.exponent))

/-- The decimal that a numeral stands for. -/
def decimal (t : DecimalNumeral) : Decimal :=
  ⟨t.sign.isMinus, Nat.ofDigitChars 10 (t.whole ++ t.fraction.getD []) 0,
    (t.exponent.map (·.2.value)).getD 0 - (t.fraction.getD []).length⟩

/-- The number that a numeral stands for. -/
def value (t : DecimalNumeral) : ℚ := t.decimal.value

theorem head?_exponentChars {exponent : Option (Char × IntNumeral)}
    (h : ∀ e ∈ exponent, e.1 = 'e' ∨ e.1 = 'E') :
    ∀ c ∈ (exponentChars exponent).head?, c.isDigit = false ∧ c ≠ '.' := by
  intro c hc
  cases exponent with
  | none => cases hc
  | some e =>
    cases hc
    rcases h e rfl with heq | heq <;> rw [heq] <;> decide

theorem readExponent?_chars {exponent : Option (Char × IntNumeral)}
    (h : ∀ e ∈ exponent, e.1 = 'e' ∨ e.1 = 'E') :
    Decimal.readExponent? (exponentChars exponent) = some ((exponent.map (·.2.value)).getD 0) := by
  cases exponent with
  | none => rfl
  | some e =>
    obtain ⟨mark, numeral⟩ := e
    have hmark : (mark = 'e' || mark = 'E') = true := by simpa using h _ rfl
    rw [exponentChars, Decimal.readExponent?, if_pos hmark]
    exact readInt?_eq_some_iff.2 ⟨numeral, rfl, rfl⟩

theorem splitFraction_chars {fraction : Option (List Char)} {exponent : Option (Char × IntNumeral)}
    (hdigits : ∀ c ∈ fraction.getD [], c.isDigit = true)
    (h : ∀ e ∈ exponent, e.1 = 'e' ∨ e.1 = 'E') :
    Decimal.splitFraction (fractionChars fraction ++ exponentChars exponent) =
      (fraction.getD [], exponentChars exponent) := by
  have hstop := head?_exponentChars h
  cases fraction with
  | none =>
    rw [fractionChars, List.nil_append, Decimal.splitFraction]
    · rfl
    · intro cs heq
      exact absurd rfl (hstop '.' (by rw [heq]; rfl)).2
  | some digits =>
    obtain ⟨htake, hdrop⟩ := span_digits hdigits fun c hc => (hstop c hc).1
    rw [fractionChars, List.cons_append, Decimal.splitFraction]
    exact Prod.ext htake hdrop

theorem ofUnsigned?_chars (t : DecimalNumeral) :
    Decimal.ofUnsigned? t.sign.isMinus
      (t.whole ++ (fractionChars t.fraction ++ exponentChars t.exponent)) = some t.decimal := by
  obtain ⟨sign, whole, fraction, exponent, hdigits, hne, hmark⟩ := t
  have hwhole : ∀ c ∈ whole, c.isDigit = true := fun c hc =>
    hdigits c (List.mem_append_left _ hc)
  have hfraction : ∀ c ∈ fraction.getD [], c.isDigit = true := fun c hc =>
    hdigits c (List.mem_append_right _ hc)
  have hfirst : ∀ c ∈ (fractionChars fraction ++ exponentChars exponent).head?,
      c.isDigit = false := by
    cases fraction with
    | none => exact fun c hc => (head?_exponentChars hmark c hc).1
    | some digits =>
      intro c hc
      cases hc
      rfl
  obtain ⟨htake, hdrop⟩ := span_digits hwhole hfirst
  have hnonempty : ¬ (whole.isEmpty && (fraction.getD []).isEmpty) = true := by
    rwa [Bool.and_eq_true, List.isEmpty_iff, List.isEmpty_iff, ← List.append_eq_nil_iff]
  rw [Decimal.ofUnsigned?, htake, hdrop, splitFraction_chars hfraction hmark]
  show (if (whole.isEmpty && (fraction.getD []).isEmpty) = true then none else _) = _
  rw [if_neg hnonempty, readExponent?_chars hmark]
  rfl

theorem splitSign_chars (sign : Sign) {cs : List Char} (h : ∀ c ∈ cs.head?, c ≠ '-' ∧ c ≠ '+') :
    Decimal.splitSign (sign.chars ++ cs) = (sign.isMinus, cs) := by
  cases sign with
  | plus | minus => rfl
  | none =>
    rw [Sign.chars, List.nil_append, Decimal.splitSign]
    · rfl
    · intro rest heq
      exact absurd rfl (h '-' (by rw [heq]; rfl)).1
    · intro rest heq
      exact absurd rfl (h '+' (by rw [heq]; rfl)).2

/-- Behind its sign a numeral starts with a digit or a point. -/
theorem exists_cons (t : DecimalNumeral) : ∃ c cs,
    t.whole ++ (fractionChars t.fraction ++ exponentChars t.exponent) = c :: cs ∧
      (c.isDigit = true ∨ c = '.') := by
  obtain ⟨sign, whole, fraction, exponent, hdigits, hne, hmark⟩ := t
  cases whole with
  | cons c whole => exact ⟨c, _, rfl, .inl (hdigits c List.mem_cons_self)⟩
  | nil =>
    cases fraction with
    | none => exact absurd rfl hne
    | some digits => exact ⟨'.', _, rfl, .inr rfl⟩

/-- **A decimal numeral is read as the decimal that it stands for.** -/
theorem ofChars?_chars (t : DecimalNumeral) : Decimal.ofChars? t.chars = some t.decimal := by
  obtain ⟨c, cs, heq, hc⟩ := t.exists_cons
  have hsign := @splitSign_chars t.sign (c :: cs) fun d hd => by
    cases hd
    rcases hc with hc | rfl
    · exact isDigit_ne_sign hc
    · decide
  have hread := t.ofUnsigned?_chars
  rw [Decimal.ofChars?, chars, heq, hsign]
  rwa [heq] at hread

end DecimalNumeral

/-! ## Words for special numbers -/

theorem toLower_of_isDigit {c : Char} (h : c.isDigit = true) : c.toLower = c := by
  have hdigit := toNat_of_isDigit h
  exact (Text.toLower_cases c).resolve_right fun hcapital => by omega

theorem Decimal.exists_cons_of_ofUnsigned? {negative : Bool} {cs : List Char} {d : Decimal}
    (h : ofUnsigned? negative cs = some d) :
    ∃ c rest, cs = c :: rest ∧ (c.isDigit = true ∨ c = '.') := by
  cases cs with
  | nil => cases h
  | cons c rest =>
    refine ⟨c, rest, rfl, ?_⟩
    by_contra hc
    obtain ⟨hdigit, hpoint⟩ := not_or.1 hc
    have hsplit : splitFraction (c :: rest) = ([], c :: rest) := by
      rw [splitFraction]
      exact fun _ heq => hpoint (List.cons.inj heq).1
    rw [ofUnsigned?, List.takeWhile_cons_of_neg hdigit, List.dropWhile_cons_of_neg hdigit,
      hsplit] at h
    cases h

/-- What is read as a decimal is no word for a special number. -/
theorem Binary64.ofChars?_of_decimal {cs : List Char} {d : Decimal}
    (h : Decimal.ofChars? cs = some d) : Binary64.ofChars? cs = some (.ofDecimal d) := by
  rw [Decimal.ofChars?] at h
  rw [ofChars?]
  generalize Decimal.splitSign cs = parts at h ⊢
  obtain ⟨negative, body⟩ := parts
  have h : Decimal.ofUnsigned? negative body = some d := h
  obtain ⟨c, rest, rfl, hc⟩ := Decimal.exists_cons_of_ofUnsigned? h
  have hlower : c.toLower = c := by
    rcases hc with hc | rfl
    · exact toLower_of_isDigit hc
    · rfl
  -- The words start with letters.
  have hword (word : List Char) (first : Char) (hfirst : word.head? = some first)
      (hletter : first.isDigit = false ∧ first ≠ '.') :
      String.ofList ((c :: rest).map Char.toLower) ≠ String.ofList word := by
    intro heq
    rw [String.ofList_inj] at heq
    rw [← heq, List.map_cons, List.head?_cons, Option.some_inj, hlower] at hfirst
    rcases hc with hc | hc
    · rw [hfirst, hletter.1] at hc
      cases hc
    · exact hletter.2 (hfirst.symm.trans hc)
  have hinf := hword "inf".toList 'i' rfl (by decide)
  have hinfinity := hword "infinity".toList 'i' rfl (by decide)
  have hnan := hword "nan".toList 'n' rfl (by decide)
  rw [String.ofList_toList] at hinf hinfinity hnan
  dsimp only
  rw [decide_eq_false hinf, decide_eq_false hinfinity, Bool.or_false, if_neg Bool.false_ne_true,
    if_neg hnan, h]
  rfl

/-! ## The binary64 number nearest to a decimal -/

namespace Decimal

theorem abs_value (d : Decimal) : |d.value| = d.coefficient * 10 ^ d.exponent := by
  have hpos : (0 : ℚ) ≤ d.coefficient * 10 ^ d.exponent := by positivity
  rw [value]
  split
  · rw [neg_one_mul, abs_neg, abs_of_nonneg hpos]
  · rw [one_mul, abs_of_nonneg hpos]

/-- Where the leading digit stands gives a power of ten on either side. -/
theorem pow_length_bounds {c : Nat} (hc : c ≠ 0) :
    10 ^ ((Nat.toDigits 10 c).length - 1) ≤ c ∧ c < 10 ^ (Nat.toDigits 10 c).length := by
  have hpos : 0 < (Nat.toDigits 10 c).length := List.length_pos_iff.2 Nat.toDigits_ne_nil
  refine ⟨?_, (Nat.length_toDigits_le_iff (by decide) hpos).1 le_rfl⟩
  rcases Nat.eq_zero_or_pos ((Nat.toDigits 10 c).length - 1) with hzero | hlen
  · rw [hzero]
    omega
  · by_contra hlt
    have := (Nat.length_toDigits_le_iff (by decide) hlen).2 (Nat.lt_of_not_le hlt)
    omega

theorem sign_value (d : Decimal) : if d.negative then d.value ≤ 0 else 0 ≤ d.value := by
  have hpos : (0 : ℚ) ≤ d.coefficient * 10 ^ d.exponent := by positivity
  cases h : d.negative <;> simp [value, h, hpos]

/-- The magnitude of a decimal in units, as a fraction. -/
theorem abs_value_mul_one (d : Decimal) :
    |d.value| * Binary64.one = match d.exponent with
      | .ofNat e => ((d.coefficient * 10 ^ e * Binary64.one : Nat) : ℚ) / (1 : Nat)
      | .negSucc e => ((d.coefficient * Binary64.one : Nat) : ℚ) / (10 ^ (e + 1) : Nat) := by
  rw [abs_value]
  cases d.exponent with
  | ofNat e =>
    simp only [Int.ofNat_eq_natCast, zpow_natCast, Nat.cast_mul, Nat.cast_pow, Nat.cast_ofNat,
      Nat.cast_one, div_one]
  | negSucc e =>
    simp only [zpow_negSucc, Nat.cast_mul, Nat.cast_pow, Nat.cast_ofNat]
    rw [mul_right_comm, div_eq_mul_inv]

theorem abs_value_lt {d : Decimal} (hc : d.coefficient ≠ 0) :
    |d.value| < 10 ^ ((Nat.toDigits 10 d.coefficient).length + d.exponent) := by
  have hlt : (d.coefficient : ℚ) < 10 ^ (Nat.toDigits 10 d.coefficient).length := by
    exact_mod_cast (pow_length_bounds hc).2
  rw [abs_value, zpow_add₀ (by norm_num), zpow_natCast]
  exact mul_lt_mul_of_pos_right hlt (by positivity)

theorem le_abs_value {d : Decimal} (hc : d.coefficient ≠ 0) :
    10 ^ ((Nat.toDigits 10 d.coefficient).length + d.exponent - 1) ≤ |d.value| := by
  have hpos : 0 < (Nat.toDigits 10 d.coefficient).length :=
    List.length_pos_iff.2 Nat.toDigits_ne_nil
  have hle : (10 : ℚ) ^ ((Nat.toDigits 10 d.coefficient).length - 1) ≤ d.coefficient := by
    exact_mod_cast (pow_length_bounds hc).1
  have hexponent : (Nat.toDigits 10 d.coefficient).length + d.exponent - 1 =
      ((Nat.toDigits 10 d.coefficient).length - 1 : Nat) + d.exponent := by omega
  rw [abs_value, hexponent, zpow_add₀ (by norm_num), zpow_natCast]
  exact mul_le_mul_of_nonneg_right hle (by positivity)

end Decimal

namespace Binary64

/-- What is less than half a unit is nearest to zero. -/
theorem nearest_zero {x : ℚ} (h : 0 ≤ x) (hlt : 2 * x < 1) : BinaryFormat.double.Nearest x 0 := by
  have hnext : BinaryFormat.double.next 0 = 1 := by decide
  refine BinaryFormat.nearest_left (by decide) (by exact_mod_cast h) ?_ fun _ => by decide
  rw [hnext, Nat.cast_zero, Nat.cast_one]
  linarith

/-- So far below a unit there is nothing but zero. -/
theorem nearest_zero_of_lt {x : ℚ} {k : Int} (h : 0 ≤ x) (hlt : x < 10 ^ k) (hk : k ≤ -401) :
    BinaryFormat.double.Nearest (x * one) 0 := by
  have hscale : ((2 * one : ℕ) : ℚ) ≤ (10 ^ 401 : ℕ) := Nat.cast_le.2 (by decide +kernel)
  rw [Nat.cast_mul, Nat.cast_pow, Nat.cast_ofNat, Nat.cast_ofNat] at hscale
  have hsmall : x * 10 ^ (401 : ℕ) < 1 := by
    calc x * 10 ^ (401 : ℕ) < 10 ^ k * 10 ^ (401 : ℕ) :=
          mul_lt_mul_of_pos_right hlt (by positivity)
      _ = (10 : ℚ) ^ (k + (401 : ℕ)) := by rw [zpow_add₀ (by norm_num), zpow_natCast]
      _ ≤ 10 ^ (0 : ℤ) := zpow_le_zpow_right₀ (by norm_num) (by omega)
      _ = 1 := zpow_zero _
  refine nearest_zero (mul_nonneg h one_posQ.le) ?_
  calc 2 * (x * one) = x * (2 * one) := by ring
    _ ≤ x * 10 ^ (401 : ℕ) := mul_le_mul_of_nonneg_left hscale h
    _ < 1 := hsmall

/-- So far above the largest number all are out of the format. -/
theorem bound_le_of_le {x : ℚ} {k : Int} (hle : 10 ^ k ≤ x) (hk : 400 ≤ k) {u : Nat}
    (h : BinaryFormat.double.Nearest (x * one) u) : 2 ^ BinaryFormat.double.bound ≤ u := by
  have hscale : ((2 ^ BinaryFormat.double.bound : ℕ) : ℚ) ≤ (10 ^ 400 * one : ℕ) :=
    Nat.cast_le.2 (by decide +kernel)
  rw [Nat.cast_mul, Nat.cast_pow 10, Nat.cast_ofNat] at hscale
  have hlarge : (10 : ℚ) ^ (400 : ℕ) ≤ x := by
    rw [← zpow_natCast]
    exact (zpow_le_zpow_right₀ (by norm_num) (by exact_mod_cast hk)).trans hle
  refine h.ge_of_ge (by decide +kernel) (hscale.trans ?_)
  exact mul_le_mul_of_nonneg_right hlarge one_posQ.le

/-- Every number has a nearest magnitude. -/
theorem exists_nearest (d : Decimal) :
    ∃ u, BinaryFormat.double.Nearest (|d.value| * one) u := by
  rw [d.abs_value_mul_one]
  split
  · exact ⟨_, BinaryFormat.nearest_round BinaryFormat.two_le_precision_double _ Nat.one_pos⟩
  · exact ⟨_, BinaryFormat.nearest_round BinaryFormat.two_le_precision_double _
      (Nat.pow_pos (by decide))⟩

/-- **Decimals are converted to the nearest number**, also those that are not computed. -/
theorem isNearestTo_ofDecimal (d : Decimal) : (ofDecimal d).IsNearestTo d.value := by
  rw [ofDecimal]
  split
  · next hsmall =>
    refine ⟨d.negative, 0, rfl, ?_, d.sign_value⟩
    by_cases hc : d.coefficient = 0
    · rw [d.abs_value, hc, Nat.cast_zero, zero_mul, zero_mul]
      exact nearest_zero le_rfl (by norm_num)
    · have hleading : (Nat.toDigits 10 d.coefficient).length + d.exponent < -400 := by
        simpa [hc] using hsmall
      exact nearest_zero_of_lt (abs_nonneg _) (Decimal.abs_value_lt hc) (by omega)
  · next hsmall =>
    split
    · next hlarge =>
      have hc : d.coefficient ≠ 0 := fun hc => hsmall (by simp [hc])
      obtain ⟨u, hu⟩ := exists_nearest d
      have hbound := bound_le_of_le (Decimal.le_abs_value hc) (by omega) hu
      exact ⟨d.negative, u, (ofUnits_of_le hbound).symm, hu, d.sign_value⟩
    · split
      · next e he =>
        refine isNearestTo_nearest Nat.one_pos ?_ d.sign_value
        rw [d.abs_value_mul_one, he]
      · next e he =>
        refine isNearestTo_nearest (Nat.pow_pos (by decide)) ?_ d.sign_value
        rw [d.abs_value_mul_one, he]

end Binary64

end RecordFilter
