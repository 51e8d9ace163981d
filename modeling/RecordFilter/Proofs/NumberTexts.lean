import RecordFilter.Proofs.Numbers
import RecordFilter.Proofs.Numerals

/-!
# The numbers of JSON

A number in JSON text is a decimal numeral of a stricter kind (`DecimalNumeral.IsJson`): what is
read at the front of a text are the pieces of such a numeral, and each one is read. Its text decides
whether it is a whole number or a float (`value?_pieces_eq_int_iff`).

A float is read from the leading digits of its text with up to three roundings, which make it
larger by a small part of itself only. So a number without a value is larger than every float, but
for such a small part (`largest_lt_of_value?_eq_none`).
-/

namespace RecordFilter

-- Powers are the repeated products of core, whatever else is imported beside this module.
attribute [local instance (high)] instPowNat

open Json (NumberText FitsWord EndsNumber)

/-! ## The grammar -/

namespace DecimalNumeral

/-- A numeral as JSON has it: without a plus in front, with digits on both sides of a point, and
without a zero in front of other digits. -/
structure IsJson (t : DecimalNumeral) : Prop where
  signed : t.sign ≠ .plus
  whole_ne_nil : t.whole ≠ []
  leading : t.whole.head? = some '0' → t.whole.length = 1
  fraction_ne_nil : t.fraction ≠ some []

/-- The pieces of a numeral. -/
def pieces (t : DecimalNumeral) : NumberText :=
  ⟨t.sign.isMinus, t.whole, t.fraction, t.exponent.map (·.2.value)⟩

theorem isDigit_of_mem_whole (t : DecimalNumeral) : ∀ c ∈ t.whole, c.isDigit = true :=
  fun c hc => t.areDigits c (List.mem_append_left _ hc)

theorem isDigit_of_mem_fraction (t : DecimalNumeral) :
    ∀ c ∈ t.fraction.getD [], c.isDigit = true :=
  fun c hc => t.areDigits c (List.mem_append_right _ hc)

end DecimalNumeral

namespace Json.NumberText

open DecimalNumeral (fractionChars exponentChars head?_exponentChars)

variable {cs rest : List Char}

/-! ### Numerals are read -/

theorem readSign_chars (numeral : IntNumeral) :
    readSign numeral.chars = (numeral.sign.isMinus, numeral.digits) := by
  obtain ⟨sign, digits, hdigits, hne⟩ := numeral
  cases sign with
  | plus | minus => rfl
  | none =>
    obtain ⟨c, digits, rfl⟩ := List.exists_cons_of_ne_nil hne
    obtain ⟨hminus, hplus⟩ := isDigit_ne_sign (hdigits c List.mem_cons_self)
    exact readSign_cons hminus hplus digits

theorem readExponent_chars {exponent : Option (Char × IntNumeral)}
    (h : ∀ e ∈ exponent, e.1 = 'e' ∨ e.1 = 'E') :
    readExponent (exponentChars exponent) = some (exponent.map (·.2.value), []) := by
  cases exponent with
  | none => rfl
  | some e =>
    obtain ⟨mark, numeral⟩ := e
    have hmark : (mark = 'e' || mark = 'E') = true := by simpa using h _ rfl
    have hdigits : digits? numeral.digits = some (numeral.digits, []) :=
      digits?_eq_some_iff.2 ⟨(List.append_nil _).symm, numeral.nonempty, numeral.areDigits, nofun⟩
    rw [exponentChars, readExponent, if_pos hmark, readSign_chars, hdigits]
    rfl

theorem readFraction_chars {fraction : Option (List Char)} (hne : fraction ≠ some [])
    (hdigits : ∀ c ∈ fraction.getD [], c.isDigit = true)
    (hrest : ∀ c ∈ rest.head?, c.isDigit = false ∧ c ≠ '.') :
    readFraction (fractionChars fraction ++ rest) = some (fraction, rest) := by
  cases fraction with
  | none =>
    rw [fractionChars, List.nil_append, readFraction]
    exact fun tail heq => (hrest '.' (by rw [heq]; rfl)).2 rfl
  | some digits =>
    have hsplit : digits? (digits ++ rest) = some (digits, rest) :=
      digits?_eq_some_iff.2 ⟨rfl, fun hnil => hne (congrArg some hnil), hdigits,
        fun c hc => (hrest c hc).1⟩
    rw [fractionChars, List.cons_append, readFraction, hsplit]
    rfl

theorem readUnsigned_chars {t : DecimalNumeral} (h : t.IsJson) (negative : Bool) :
    readUnsigned negative (t.whole ++ (fractionChars t.fraction ++ exponentChars t.exponent)) =
      some (⟨negative, t.whole, t.fraction, t.exponent.map (·.2.value)⟩, []) := by
  have hstop := head?_exponentChars t.isMark
  have hwhole : digits? (t.whole ++ (fractionChars t.fraction ++ exponentChars t.exponent)) =
      some (t.whole, fractionChars t.fraction ++ exponentChars t.exponent) := by
    refine digits?_eq_some_iff.2 ⟨rfl, h.whole_ne_nil, t.isDigit_of_mem_whole, ?_⟩
    cases hfraction : t.fraction with
    | none => exact fun c hc => (hstop c hc).1
    | some digits =>
      intro c hc
      cases hc
      rfl
  have hleading : ¬ (t.whole.head? == some '0' && decide (1 < t.whole.length)) = true := by
    rw [Bool.and_eq_true, beq_iff_eq, decide_eq_true_iff]
    rintro ⟨hzero, hlength⟩
    exact hlength.ne' (h.leading hzero)
  unfold readUnsigned
  simp only [hwhole, if_neg hleading,
    readFraction_chars h.fraction_ne_nil t.isDigit_of_mem_fraction hstop,
    readExponent_chars t.isMark, Option.map_some]

/-- **Every numeral of JSON is read**, as its pieces. -/
theorem read_chars {t : DecimalNumeral} (h : t.IsJson) : read t.chars = some (t.pieces, []) := by
  have hread := readUnsigned_chars h t.sign.isMinus
  cases hsign : t.sign with
  | plus => exact absurd hsign h.signed
  | minus =>
    rw [hsign] at hread
    rw [DecimalNumeral.chars, DecimalNumeral.pieces, hsign]
    exact hread
  | none =>
    obtain ⟨c, whole, hwhole⟩ := List.exists_cons_of_ne_nil h.whole_ne_nil
    have hc := isDigit_ne_sign (t.isDigit_of_mem_whole c (hwhole ▸ List.mem_cons_self))
    rw [hsign] at hread
    rw [DecimalNumeral.chars, DecimalNumeral.pieces, hsign, Sign.chars, List.nil_append, read]
    · exact hread
    · intro tail heq
      rw [hwhole, List.cons_append] at heq
      exact hc.1 (List.cons.inj heq).1

/-! ### What is read is a numeral -/

theorem exists_intNumeral {digits : List Char} (h : digits? (readSign cs).2 = some (digits, rest)) :
    ∃ numeral : IntNumeral, cs = numeral.chars ++ rest ∧
      numeral.value = exponentOf (readSign cs).1 digits := by
  obtain ⟨hcs, hne, hdigits, -⟩ := digits?_eq_some_iff.1 h
  unfold readSign at h hcs ⊢
  split at hcs
  · exact ⟨⟨.minus, digits, hdigits, hne⟩, congrArg _ hcs, rfl⟩
  · exact ⟨⟨.plus, digits, hdigits, hne⟩, congrArg _ hcs, rfl⟩
  · exact ⟨⟨.none, digits, hdigits, hne⟩, hcs, rfl⟩

theorem exists_exponent {exponent : Option Int} (h : readExponent cs = some (exponent, rest)) :
    ∃ e : Option (Char × IntNumeral), (∀ x ∈ e, x.1 = 'e' ∨ x.1 = 'E') ∧
      cs = exponentChars e ++ rest ∧ e.map (·.2.value) = exponent := by
  unfold readExponent at h
  split at h
  · cases h
    exact ⟨none, fun x hx => absurd hx (Option.not_mem_none x), rfl, rfl⟩
  · next c cs =>
    split at h
    · next hmark =>
      obtain ⟨⟨digits, left⟩, hdigits, heq⟩ := Option.map_eq_some_iff.1 h
      cases heq
      obtain ⟨numeral, hcs, hvalue⟩ := exists_intNumeral hdigits
      refine ⟨some (c, numeral), ?_, congrArg _ hcs, congrArg _ hvalue⟩
      intro x hx
      cases hx
      simpa using hmark
    · cases h
      exact ⟨none, fun x hx => absurd hx (Option.not_mem_none x), rfl, rfl⟩

theorem eq_fractionChars {fraction : Option (List Char)}
    (h : readFraction cs = some (fraction, rest)) :
    cs = fractionChars fraction ++ rest ∧ fraction ≠ some [] ∧
      ∀ c ∈ fraction.getD [], c.isDigit = true := by
  unfold readFraction at h
  split at h
  · next cs =>
    obtain ⟨⟨digits, left⟩, hsplit, heq⟩ := Option.map_eq_some_iff.1 h
    cases heq
    obtain ⟨rfl, hne, hdigits, -⟩ := digits?_eq_some_iff.1 hsplit
    exact ⟨rfl, fun hnil => hne (Option.some_inj.1 hnil), hdigits⟩
  · cases h
    exact ⟨rfl, nofun, nofun⟩

theorem exists_numeral_of_readUnsigned (sign : Sign) (hsign : sign ≠ .plus) {p : NumberText}
    (h : readUnsigned sign.isMinus cs = some (p, rest)) :
    ∃ t : DecimalNumeral, t.IsJson ∧ t.pieces = p ∧ sign.chars ++ cs = t.chars ++ rest := by
  unfold readUnsigned at h
  split at h
  · cases h
  · next whole cs₁ hwhole =>
    split at h
    · cases h
    · next hzero =>
      split at h
      · cases h
      · next fraction cs₂ hfraction =>
        obtain ⟨⟨exponent, left⟩, hexponent, heq⟩ := Option.map_eq_some_iff.1 h
        cases heq
        obtain ⟨rfl, hne, hdigits, -⟩ := digits?_eq_some_iff.1 hwhole
        obtain ⟨rfl, hsome, hfractionDigits⟩ := eq_fractionChars hfraction
        obtain ⟨e, hmark, rfl, rfl⟩ := exists_exponent hexponent
        have hleading (hhead : whole.head? = some '0') : whole.length = 1 := by
          have hpos := List.length_pos_iff.2 hne
          rw [hhead, beq_self_eq_true, Bool.true_and, decide_eq_true_iff] at hzero
          omega
        refine ⟨⟨sign, whole, fraction, e, ?_, ?_, hmark⟩, ⟨hsign, hne, hleading, hsome⟩, rfl, ?_⟩
        · intro c hc
          exact (List.mem_append.1 hc).elim (hdigits c) (hfractionDigits c)
        · exact fun hnil => hne (List.append_eq_nil_iff.1 hnil).1
        · simp only [DecimalNumeral.chars, List.append_assoc]

/-- **Only numerals of JSON are read.** -/
theorem exists_numeral_of_read {p : NumberText} (h : read cs = some (p, rest)) :
    ∃ t : DecimalNumeral, t.IsJson ∧ t.pieces = p ∧ cs = t.chars ++ rest := by
  unfold read at h
  split at h
  · exact exists_numeral_of_readUnsigned .minus (by decide) h
  · exact exists_numeral_of_readUnsigned .none (by decide) h

/-! ## Whole numbers and floats -/

theorem value?_eq_int_iff {p : NumberText} {i : Int} :
    p.value? = some (.int i) ↔ p.fraction = none ∧ p.exponent = none ∧
      ¬ (p.negative = true ∧ Nat.ofDigitChars 10 p.whole 0 = 0) ∧ FitsWord i ∧
        i = if p.negative then -(Nat.ofDigitChars 10 p.whole 0 : Int)
          else Nat.ofDigitChars 10 p.whole 0 := by
  have hfloat : p.toFloat?.map Number.float ≠ some (.int i) := by
    cases p.toFloat? <;> simp
  unfold value? FitsWord
  generalize Nat.ofDigitChars 10 p.whole 0 = n
  dsimp only
  split
  · next hplain =>
    rw [Bool.and_eq_true, Option.isNone_iff_eq_none, Option.isNone_iff_eq_none] at hplain
    cases p.negative <;> grind
  · next hplain =>
    rw [Bool.and_eq_true, Option.isNone_iff_eq_none, Option.isNone_iff_eq_none] at hplain
    exact ⟨fun h => absurd h hfloat, fun h => absurd ⟨h.1, h.2.1⟩ hplain⟩

/-- The whole numbers that are read are those of 64 bits. -/
theorem fitsWord_of_value? {p : NumberText} {i : Int} (h : p.value? = some (.int i)) :
    FitsWord i := (value?_eq_int_iff.1 h).2.2.2.1

/-- What is not read as a whole number is read as a float, or not at all. -/
theorem value?_eq_toFloat? {p : NumberText} (h : ∀ i, p.value? ≠ some (.int i)) :
    p.value? = p.toFloat?.map .float := by
  unfold value? at h ⊢
  dsimp only at h ⊢
  split
  · next hplain =>
    rw [if_pos hplain] at h
    split
    · next hneg => exact absurd (if_pos hneg) (h _)
    · next hneg =>
      rw [if_neg hneg] at h
      split
      · next hpos => exact absurd (if_pos hpos) (h _)
      · rfl
  · rfl

end Json.NumberText

namespace DecimalNumeral

/-- A numeral without point and exponent, other than minus zero, whose value 64 bits hold, signed or
unsigned. -/
structure IsWord (t : DecimalNumeral) : Prop where
  fraction : t.fraction = none
  exponent : t.exponent = none
  notMinusZero : t.chars ≠ ['-', '0']
  fits : ∃ i : Int, FitsWord i ∧ t.value = i

/-- The value of a numeral without point and exponent. -/
theorem value_of_plain {t : DecimalNumeral} (hfraction : t.fraction = none)
    (hexponent : t.exponent = none) :
    t.value = ((if t.sign.isMinus then -(Nat.ofDigitChars 10 t.whole 0 : Int)
      else Nat.ofDigitChars 10 t.whole 0 : Int) : ℚ) := by
  rw [value, decimal, hfraction, hexponent, Decimal.value]
  cases t.sign.isMinus <;> simp

/-- Zero is written as a single digit. -/
theorem whole_eq_zero {t : DecimalNumeral} (h : t.IsJson)
    (hzero : Nat.ofDigitChars 10 t.whole 0 = 0) : t.whole = ['0'] := by
  obtain ⟨c, whole, hwhole⟩ := List.exists_cons_of_ne_nil h.whole_ne_nil
  have hdigit := toNat_of_isDigit (t.isDigit_of_mem_whole c (hwhole ▸ List.mem_cons_self))
  rw [hwhole, Nat.ofDigitChars_cons, Nat.ofDigitChars_eq_ofDigitChars_zero, mul_zero, zero_add]
    at hzero
  have hfirst : c = '0' := by
    have hproduct := (Nat.add_eq_zero_iff.1 hzero).1
    have hle : c.toNat - '0'.toNat = 0 :=
      (Nat.mul_eq_zero.1 hproduct).resolve_left (Nat.pow_pos (by decide)).ne'
    exact Char.toNat_inj.1 (Nat.le_antisymm (Nat.sub_eq_zero_iff_le.1 hle) hdigit.1)
  have hlength := h.leading (by rw [hwhole, hfirst]; rfl)
  rw [hwhole, List.length_cons, Nat.add_eq_right, List.length_eq_zero_iff] at hlength
  rw [hwhole, hlength, hfirst]

theorem chars_eq_minusZero_iff {t : DecimalNumeral} (h : t.IsJson) (hfraction : t.fraction = none)
    (hexponent : t.exponent = none) :
    t.chars = ['-', '0'] ↔ t.sign.isMinus = true ∧ Nat.ofDigitChars 10 t.whole 0 = 0 := by
  have hchars : t.chars = t.sign.chars ++ t.whole := by
    rw [chars, hfraction, hexponent, fractionChars, exponentChars, List.append_nil, List.append_nil]
  rw [hchars]
  constructor
  · intro heq
    cases hsign : t.sign with
    | plus => exact absurd hsign h.signed
    | minus =>
      rw [hsign] at heq
      rw [show t.whole = ['0'] from (List.cons.inj heq).2]
      exact ⟨rfl, rfl⟩
    | none =>
      rw [hsign] at heq
      have hdigit := t.isDigit_of_mem_whole '-' (by rw [show t.whole = _ from heq]; simp)
      exact absurd hdigit (by decide)
  · rintro ⟨hminus, hzero⟩
    rw [whole_eq_zero h hzero]
    cases hsign : t.sign with
    | minus => rfl
    | plus | none =>
      rw [hsign] at hminus
      cases hminus

/-- **A numeral is read as a whole number** just if it is one of 64 bits, written without point and
exponent, and not minus zero. -/
theorem value?_pieces_eq_int_iff {t : DecimalNumeral} (h : t.IsJson) {i : Int} :
    t.pieces.value? = some (.int i) ↔ t.IsWord ∧ t.value = i := by
  rw [NumberText.value?_eq_int_iff]
  constructor
  · rintro ⟨hfraction, hexponent, hzero, hfits, hi⟩
    have hfraction : t.fraction = none := hfraction
    have hexponent : t.exponent = none := Option.map_eq_none_iff.1 hexponent
    have hvalue : t.value = i := by rw [value_of_plain hfraction hexponent, hi]; rfl
    have hchars : t.chars ≠ ['-', '0'] :=
      fun hchars => hzero ((chars_eq_minusZero_iff h hfraction hexponent).1 hchars)
    exact ⟨⟨hfraction, hexponent, hchars, i, hfits, hvalue⟩, hvalue⟩
  · rintro ⟨⟨hfraction, hexponent, hchars, j, hfits, hj⟩, hi⟩
    have hij : j = i := by exact_mod_cast hj.symm.trans hi
    have hvalue := value_of_plain hfraction hexponent
    rw [hi, Int.cast_inj] at hvalue
    exact ⟨hfraction, by rw [pieces, hexponent]; rfl,
      fun hzero => hchars ((chars_eq_minusZero_iff h hfraction hexponent).2 hzero),
      hij ▸ hfits, hvalue⟩

end DecimalNumeral

/-! ## Numbers without a value -/

namespace Json.NumberText

/-- What taking in digits after a significand `s` amounts to: `r` is the significand with the `n`
digits that are taken in. -/
structure Taken (s : Nat) (cs : List Char) (r n : Nat) : Prop where
  count_le : n ≤ cs.length
  lt : r < (s + 1) * 10 ^ n
  le : r * 10 ^ (cs.length - n) ≤ Nat.ofDigitChars 10 cs s
  /-- Digits are left out only after as many as 64 bits hold. -/
  full : n < cs.length → 2 ^ (64 : Nat) ≤ 10 * r + 9

theorem taken_takeIn {cs : List Char} (hdigits : ∀ c ∈ cs, c.isDigit = true) (s : Nat) :
    Taken s cs (takeIn s cs).1 (takeIn s cs).2 := by
  induction cs generalizing s with
  | nil =>
    exact ⟨Nat.le_refl 0, Nat.lt_of_lt_of_eq (Nat.lt_succ_self s) (Nat.mul_one _).symm,
      Nat.le_of_eq (Nat.mul_one s), fun h => absurd h (Nat.lt_irrefl 0)⟩
  | cons c cs ih =>
    have hc := toNat_of_isDigit (hdigits c List.mem_cons_self)
    have hdigit : c.toNat - '0'.toNat ≤ 9 := Nat.sub_le_of_le_add hc.2
    rw [takeIn]
    split
    · have hrest := ih (fun d hd => hdigits d (List.mem_cons_of_mem _ hd))
        (10 * s + (c.toNat - '0'.toNat))
      refine ⟨Nat.succ_le_succ hrest.count_le, ?_, ?_,
        fun hlt => hrest.full (Nat.lt_of_succ_lt_succ hlt)⟩
      · refine hrest.lt.trans_le ?_
        rw [Nat.pow_succ, Nat.mul_comm (10 ^ _) 10, ← Nat.mul_assoc]
        exact Nat.mul_le_mul_right _ (by omega)
      · rw [List.length_cons, Nat.add_sub_add_right, Nat.ofDigitChars_cons]
        exact hrest.le
    · next hfull =>
      refine ⟨Nat.zero_le _, by rw [Nat.pow_zero]; omega, ?_, fun _ => by omega⟩
      rw [Nat.ofDigitChars_eq_ofDigitChars_zero, Nat.mul_comm, Nat.sub_zero]
      exact Nat.le_add_right ..

theorem ofDigitChars_append (whole fraction : List Char) :
    Nat.ofDigitChars 10 (whole ++ fraction) 0 =
      10 ^ fraction.length * Nat.ofDigitChars 10 whole 0 + Nat.ofDigitChars 10 fraction 0 := by
  rw [Nat.ofDigitChars_append, Nat.ofDigitChars_eq_ofDigitChars_zero]

section Taken

variable {whole fraction : List Char} {w s m n : Nat}

/-- If all digits in front of the point are taken in, some behind it may be left out. -/
theorem Taken.mul_le_of_all (hwhole : Taken 0 whole w whole.length)
    (hfraction : Taken w fraction s n) :
    s * 10 ^ (fraction.length - n) ≤ Nat.ofDigitChars 10 (whole ++ fraction) 0 := by
  have hle := hwhole.le
  rw [Nat.sub_self, Nat.pow_zero, Nat.mul_one] at hle
  refine hfraction.le.trans ?_
  rw [ofDigitChars_append, Nat.ofDigitChars_eq_ofDigitChars_zero]
  exact Nat.add_le_add_right (Nat.mul_le_mul_left _ hle) _

theorem Taken.mul_le (hwhole : Taken 0 whole w m) (fraction : List Char) :
    w * 10 ^ (whole.length - m) * 10 ^ fraction.length ≤
      Nat.ofDigitChars 10 (whole ++ fraction) 0 := by
  rw [ofDigitChars_append, Nat.mul_comm]
  exact (Nat.mul_le_mul_left _ hwhole.le).trans (Nat.le_add_right ..)

/-- Where digits are left out, one more is a small part of what was taken in. -/
theorem Taken.add_one_le (hwhole : Taken 0 whole w m) (hleft : m < whole.length) :
    (w : ℚ) + 1 ≤ w * (1 + 1 / 10 ^ 18) := by
  have hfull := hwhole.full hleft
  have hlarge : ((10 ^ 18 : Nat) : ℚ) ≤ w := Nat.cast_le.2 (by omega)
  rw [Nat.cast_pow, Nat.cast_ofNat] at hlarge
  have hpart : (1 : ℚ) ≤ w * (1 / 10 ^ 18) := by
    rw [mul_one_div, one_le_div (by norm_num)]
    exact hlarge
  linarith

/-- **The significand that is read** amounts to no more than the digits do, but for a small part. -/
theorem significand_le (hwhole : Taken 0 whole w m) (hfraction : Taken w fraction s n) :
    (s : ℚ) * 10 ^ (((whole.length - m : Nat) : Int) - n) ≤
      Nat.ofDigitChars 10 (whole ++ fraction) 0 * 10 ^ (-(fraction.length : Int)) *
        (1 + 1 / 10 ^ 18) := by
  have hcount := hfraction.count_le
  rcases Nat.eq_or_lt_of_le hwhole.count_le with rfl | hleft
  · have hdigits : (s : ℚ) * 10 ^ ((fraction.length - n : Nat) : Int) ≤
        Nat.ofDigitChars 10 (whole ++ fraction) 0 := by
      rw [zpow_natCast]
      exact_mod_cast hwhole.mul_le_of_all hfraction
    have hexponent : ((whole.length - whole.length : Nat) : Int) - n =
        ((fraction.length - n : Nat) : Int) + -(fraction.length : Int) := by omega
    rw [hexponent, zpow_add₀ (by norm_num), ← mul_assoc]
    refine (mul_le_mul_of_nonneg_right hdigits (by positivity)).trans ?_
    exact le_mul_of_one_le_right (by positivity) (by norm_num)
  · have hs : (s : ℚ) * 10 ^ (-(n : Int)) ≤ w + 1 := by
      rw [zpow_neg, zpow_natCast, ← div_eq_mul_inv, div_le_iff₀ (by positivity)]
      exact_mod_cast hfraction.lt.le
    have hdigits : (w : ℚ) * 10 ^ ((whole.length - m : Nat) : Int) ≤
        Nat.ofDigitChars 10 (whole ++ fraction) 0 * 10 ^ (-(fraction.length : Int)) := by
      rw [zpow_neg, zpow_natCast, zpow_natCast, ← div_eq_mul_inv, le_div_iff₀ (by positivity)]
      exact_mod_cast hwhole.mul_le fraction
    calc (s : ℚ) * 10 ^ (((whole.length - m : Nat) : Int) - n)
        = s * 10 ^ (-(n : Int)) * 10 ^ ((whole.length - m : Nat) : Int) := by
          rw [mul_assoc, ← zpow_add₀ (by norm_num), neg_add_eq_sub]
      _ ≤ w * (1 + 1 / 10 ^ 18) * 10 ^ ((whole.length - m : Nat) : Int) :=
          mul_le_mul_of_nonneg_right (hs.trans (hwhole.add_one_le hleft)) (by positivity)
      _ = w * 10 ^ ((whole.length - m : Nat) : Int) * (1 + 1 / 10 ^ 18) := by ring
      _ ≤ _ := mul_le_mul_of_nonneg_right hdigits (by positivity)

end Taken

/-- Rounding in binary64 makes what is at least one larger by a small part of itself only. -/
theorem round_le {k : Nat} (h : Binary64.one ≤ k) :
    (BinaryFormat.double.round k 1 : ℚ) ≤ k * (1 + 1 / 2 ^ 52) := by
  have hround := BinaryFormat.nearest_round BinaryFormat.two_le_precision_double k Nat.one_pos
  rw [Nat.cast_one, div_one] at hround
  have hsmall : 2 ^ (BinaryFormat.double.finest + (BinaryFormat.double.precision - 1)) ≤ k :=
    Nat.le_trans (by decide +kernel) h
  have hle := hround.mul_le BinaryFormat.two_le_precision_double (by exact_mod_cast hsmall)
  rw [show BinaryFormat.double.precision - 1 = 52 from rfl] at hle
  have hscaled : (k : ℚ) * (1 + 1 / 2 ^ 52) = k * (2 ^ 52 + 1) / 2 ^ 52 := by ring
  rw [hscaled, le_div_iff₀ (by positivity)]
  exact hle

/-- Two magnitudes whose product is beyond the format make a product beyond the largest float. -/
theorem largest_mul_one_lt {a b : Nat} (h : ¬ Binary64.mulUnits a b < 2 ^ (2098 : Nat)) :
    BinaryFormat.double.largest * Binary64.one < a * b := by
  by_contra hle
  have hproduct := BinaryFormat.nearest_round BinaryFormat.two_le_precision_double (a * b)
    Binary64.one_pos
  have hbound : ((a * b : Nat) : ℚ) / Binary64.one ≤ BinaryFormat.double.largest := by
    rw [div_le_iff₀ Binary64.one_posQ]
    exact_mod_cast Nat.le_of_not_lt hle
  have hscaled := hproduct.le_of_le (by decide +kernel) hbound
  exact h (Nat.lt_of_le_of_lt hscaled (by decide +kernel))

theorem lt_pow_mul_of_le {k n e : Nat} (h : n ≤ e) (hk : k < 10 ^ n * Binary64.one) :
    k < 10 ^ e * Binary64.one :=
  hk.trans_le (Nat.mul_le_mul_right _ (Nat.pow_le_pow_right (by decide) h))

/-- A significand with a power of ten for which there is no float is beyond the largest one, but for
a small part. -/
theorem largest_lt_of_scale? {s : Nat} {e : Int} (h : scale? s e = none) :
    (BinaryFormat.double.largest : ℚ) < s * 10 ^ e * (1 + 1 / 2 ^ 52) ^ 2 * Binary64.one := by
  unfold scale? at h
  dsimp only at h
  split at h
  · next e =>
    split at h
    · cases h
    · next hs =>
      have hspos : 0 < s := Nat.pos_of_ne_zero hs
      rw [Int.ofNat_eq_natCast, zpow_natCast]
      split at h
      · next hlarge =>
        have hlt : BinaryFormat.double.largest < s * 10 ^ e * Binary64.one :=
          (lt_pow_mul_of_le (Nat.succ_le_of_lt hlarge) (by decide +kernel)).trans_le
            (Nat.mul_le_mul_right _ (Nat.le_mul_of_pos_left _ hspos))
        have hltQ : (BinaryFormat.double.largest : ℚ) < s * 10 ^ e * Binary64.one := by
          exact_mod_cast hlt
        refine hltQ.trans_le (mul_le_mul_of_nonneg_right ?_ Binary64.one_posQ.le)
        exact le_mul_of_one_le_right (by positivity) (by norm_num)
      · split at h
        · cases h
        · next hscaled =>
          have hunits := round_le (Nat.le_mul_of_pos_left Binary64.one hspos)
          have hpower := round_le (Nat.le_mul_of_pos_left Binary64.one
            (Nat.pow_pos (n := e) (show 0 < 10 by decide)))
          have hproduct : (BinaryFormat.double.largest : ℚ) * Binary64.one <
              BinaryFormat.double.round (s * Binary64.one) 1 *
                BinaryFormat.double.round (10 ^ e * Binary64.one) 1 := by
            rw [← Nat.cast_mul, ← Nat.cast_mul]
            exact Nat.cast_lt.2 (largest_mul_one_lt hscaled)
          refine lt_of_mul_lt_mul_right (hproduct.trans_le ?_) Binary64.one_posQ.le
          refine (mul_le_mul hunits hpower (Nat.cast_nonneg _)
            (mul_nonneg (Nat.cast_nonneg _) (by norm_num))).trans_eq ?_
          push_cast
          ring
  · split at h
    · cases h
    · split at h <;> cases h

end Json.NumberText

namespace DecimalNumeral

theorem abs_value (t : DecimalNumeral) :
    |t.value| = (Nat.ofDigitChars 10 (t.whole ++ t.fraction.getD []) 0 : ℚ) *
      10 ^ (-((t.fraction.getD []).length : Int)) *
        10 ^ (t.exponent.map (·.2.value)).getD 0 := by
  rw [value, Decimal.abs_value, mul_assoc, ← zpow_add₀ (by norm_num), decimal, sub_eq_neg_add]

/-- **A numeral without a value is too large**: it is beyond the largest float, but for a small part
of itself. -/
theorem largest_lt_of_value?_eq_none {t : DecimalNumeral} (h : t.pieces.value? = none) :
    (BinaryFormat.double.largest : ℚ) < |t.value| * (1 + 1 / 2 ^ 50) * Binary64.one := by
  have hfloat : t.pieces.toFloat? = none := by
    rw [NumberText.value?_eq_toFloat? (by rw [h]; nofun)] at h
    exact Option.map_eq_none_iff.1 h
  have hwhole := NumberText.taken_takeIn t.isDigit_of_mem_whole 0
  have hfraction := NumberText.taken_takeIn t.isDigit_of_mem_fraction
    (NumberText.takeIn 0 t.whole).1
  have hscale := NumberText.largest_lt_of_scale? (Option.map_eq_none_iff.1 hfloat)
  have hsignificand := NumberText.significand_le hwhole hfraction
  have hexponent : t.pieces.exponent.getD 0 = (t.exponent.map (·.2.value)).getD 0 := rfl
  refine hscale.trans_le (mul_le_mul_of_nonneg_right ?_ Binary64.one_posQ.le)
  rw [t.abs_value, zpow_add₀ (by norm_num), hexponent, ← mul_assoc]
  generalize (t.exponent.map (·.2.value)).getD 0 = e
  -- The errors of the roundings and of the digits left out add up.
  calc _ ≤ (Nat.ofDigitChars 10 (t.whole ++ t.fraction.getD []) 0 : ℚ) *
          10 ^ (-((t.fraction.getD []).length : Int)) * (1 + 1 / 10 ^ 18) * 10 ^ e *
            (1 + 1 / 2 ^ 52) ^ 2 :=
        mul_le_mul_of_nonneg_right (mul_le_mul_of_nonneg_right hsignificand (by positivity))
          (by positivity)
    _ = (Nat.ofDigitChars 10 (t.whole ++ t.fraction.getD []) 0 : ℚ) *
          10 ^ (-((t.fraction.getD []).length : Int)) * 10 ^ e *
            ((1 + 1 / 10 ^ 18) * (1 + 1 / 2 ^ 52) ^ 2) := by ring
    _ ≤ _ := mul_le_mul_of_nonneg_left (by norm_num) (by positivity)

end DecimalNumeral

end RecordFilter
