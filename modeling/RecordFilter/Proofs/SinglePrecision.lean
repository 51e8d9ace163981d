import RecordFilter.Proofs.Numerals
import RecordFilter.Coercion
import RecordFilter.Samples

/-!
# Literals for single-precision fields

A literal for a single-precision field goes through double precision. A double is taken for the
nearest single-precision number, or refused if it is greater than all of them, and what is taken is
single already (`isSingle_of_toSingle?`, `toSingle?_of_isSingle`). The number that a literal denotes
need not be a double, though. Then rounding it first can lose where it lies, and `Misrounded` lists
the ways: the double is infinite, or the largest single-precision number, or halfway between two of
them. `coerce_single`: a literal is converted as its number should be just when none of this is so.
-/

namespace RecordFilter

-- Powers are the repeated products of core, whatever else is imported beside this module.
attribute [local instance (high)] instPowNat

/-! ## The largest magnitude -/

namespace BinaryFormat

theorem onGrid_largest_single : single.OnGrid single.largest := by decide +kernel

theorem next_largest_single : single.next single.largest = 2 ^ single.bound := by decide +kernel

theorem single_holds_iff {u : Nat} : single.Holds u ↔ single.OnGrid u ∧ u ≤ single.largest := by
  rw [holds_iff, and_comm, ← next_largest_single]
  refine and_congr_right fun hu => ⟨fun hlt => ?_, fun hle => hle.trans_lt (lt_next _ _)⟩
  by_contra hgt
  exact absurd hlt (not_lt.2 (next_le_of_lt onGrid_largest_single hu (not_le.1 hgt)))

theorem double_holds_of_single {u : Nat} (h : single.Holds u) : double.Holds u :=
  ⟨h.1.trans_le (Nat.pow_le_pow_right (by decide) (by decide)), double_finer_single.onGrid h.2⟩

end BinaryFormat

namespace Binary64

/-! ## Single-precision numbers -/

/-- A number that single precision has. The special numbers are in every precision. -/
def IsSingle : Binary64 → Prop
  | finite _ units _ => BinaryFormat.single.Holds units
  | _ => True

instance : DecidablePred IsSingle
  | finite _ units _ => inferInstanceAs (Decidable (BinaryFormat.single.Holds units))
  | nan | infinite _ => isTrue trivial

/-- The largest single-precision number. -/
def largestSingle : ℚ := BinaryFormat.single.largest / one

/-- The single-precision number nearest to `q`, of two equally near the even one. Past the largest
one the grid goes on. -/
def IsNearestSingle (x : Binary64) (q : ℚ) : Prop :=
  ∃ negative s h, x = finite negative s h ∧ BinaryFormat.single.Nearest (|q| * one) s ∧
    if negative then q ≤ 0 else 0 ≤ q

/-- No other single-precision number is nearer. -/
theorem IsNearestSingle.abs_sub_le {x y : Binary64} {q : ℚ} (h : x.IsNearestSingle q)
    (hfinite : y.isFinite = true) (hsingle : y.IsSingle) : |q - x.value| ≤ |q - y.value| := by
  obtain ⟨negative, s, hs, hx, hnear, hsign⟩ := h
  cases y with
  | nan | infinite => cases hfinite
  | finite negative' t ht =>
    have hscale (p : Int) : |q - p / one| = |q * one - p| / one := by
      rw [← abs_of_pos one_posQ, ← abs_div, abs_of_pos one_posQ, sub_div,
        mul_div_cancel_right₀ _ one_posQ.ne']
    have hsame : |q * one - (signed negative s : Int)| = |(|q| * one - s)| := by
      cases negative with
      | true =>
        rw [abs_of_nonpos hsign, signed, if_pos rfl, Int.cast_neg, Int.cast_natCast, ← abs_neg]
        congr 1
        ring
      | false =>
        have hsign : 0 ≤ q := by simpa using hsign
        rw [abs_of_nonneg hsign, signed, if_neg Bool.false_ne_true, Int.cast_natCast]
    have hother : |(|q| * one - t)| ≤ |q * one - (signed negative' t : Int)| := by
      have htriangle := abs_abs_sub_abs_le (q * one) (signed negative' t : Int)
      rwa [abs_signed, abs_mul, abs_of_pos one_posQ] at htriangle
    rw [hx, value, value, hscale, hscale, hsame]
    exact div_le_div_of_nonneg_right ((hnear.le t hsingle.2).trans hother) one_posQ.le

theorem abs_le_largestSingle_iff {q : ℚ} :
    |q| ≤ largestSingle ↔ |q| * one ≤ BinaryFormat.single.largest := le_div_iff₀ one_posQ

theorem abs_value_le_largestSingle_iff {negative : Bool} {u : Nat} {h} :
    |(finite negative u h).value| ≤ largestSingle ↔ u ≤ BinaryFormat.single.largest := by
  rw [abs_le_largestSingle_iff, abs_value_mul_one, Nat.cast_le]

theorem toSingle?_of_lt {negative : Bool} {u : Nat} {h} (hlt : BinaryFormat.single.largest < u) :
    (finite negative u h).toSingle? = none := by
  rw [toSingle?, if_pos hlt]

/-- A double up to the largest single-precision number is rounded to the nearest one. -/
theorem toSingle?_of_le (negative : Bool) {u : Nat} (h) (hle : u ≤ BinaryFormat.single.largest) :
    ∃ s hs, (finite negative u h).toSingle? = some (finite negative s hs) ∧
      BinaryFormat.single.Nearest u s ∧ BinaryFormat.single.Holds s := by
  have hnear := BinaryFormat.nearest_round BinaryFormat.two_le_precision_single u Nat.one_pos
  rw [Nat.cast_one, div_one] at hnear
  have hlargest : BinaryFormat.single.round u 1 ≤ BinaryFormat.single.largest :=
    hnear.le_of_le BinaryFormat.onGrid_largest_single (Nat.cast_le.2 hle)
  have hsingle := BinaryFormat.single_holds_iff.2 ⟨hnear.onGrid, hlargest⟩
  have hdouble := BinaryFormat.double_holds_of_single hsingle
  refine ⟨_, hdouble, ?_, hnear, hsingle⟩
  rw [toSingle?, if_neg (not_lt.2 hle), toSingle, if_pos hsingle.1, ofUnits, dif_pos hdouble]

/-- What is taken is a single-precision number. -/
theorem isSingle_of_toSingle? {x y : Binary64} (h : x.toSingle? = some y) : y.IsSingle := by
  cases x with
  | nan | infinite =>
    cases h
    trivial
  | finite negative u holds =>
    rcases Nat.lt_or_ge BinaryFormat.single.largest u with hlt | hge
    · rw [toSingle?_of_lt hlt] at h
      cases h
    · obtain ⟨s, hs, heq, -, hsingle⟩ := toSingle?_of_le negative holds hge
      rw [heq] at h
      cases h
      exact hsingle

/-- A single-precision number is taken as it is. -/
theorem toSingle?_of_isSingle {x : Binary64} (h : x.IsSingle) : x.toSingle? = some x := by
  cases x with
  | nan | infinite => rfl
  | finite negative u holds =>
    obtain ⟨hgrid, hle⟩ := BinaryFormat.single_holds_iff.1 h
    obtain ⟨s, hs, heq, hnear, -⟩ := toSingle?_of_le negative holds hle
    have hsu : s = u := hnear.eq_of_onGrid hgrid
    subst hsu
    exact heq

/-- The ways in which rounding `q` to the double `d` first loses what its nearest single-precision
number is. -/
inductive Misrounded (q : ℚ) : Binary64 → Prop
  /-- An infinite double is taken for a literal that was infinite itself. -/
  | overflow (negative : Bool) : Misrounded q (infinite negative)
  /-- What is too large is rounded to the largest number. -/
  | clipped (negative : Bool) (u : Nat) (h) : largestSingle < |q| →
      u = BinaryFormat.single.largest → Misrounded q (finite negative u h)
  /-- A tie of doubles is no tie of the numbers that were rounded to them. -/
  | halfway (negative : Bool) (u : Nat) (h) : |q| ≤ largestSingle →
      BinaryFormat.single.Halfway (|q| * one) u → Misrounded q (finite negative u h)

end Binary64

/-! ## Literals -/

namespace Literal

/-- The exact number that a literal denotes: a whole number, a finite float, or the decimal numeral
between the blanks of a text. -/
inductive Denotes : Literal → ℚ → Prop
  | int (i : Int128) : Denotes (int i) i.val
  | float {x : Binary64} : x.isFinite = true → Denotes (float x) x.value
  | text {s : String} (t : DecimalNumeral) : t.chars = Text.trimChars s.toList →
      Denotes (str s) t.value

/-- A float field starts from the double nearest to the number that a literal denotes. -/
theorem Denotes.toFloat? {literal : Literal} {q : ℚ} (h : literal.Denotes q) :
    ∃ d : Binary64, d.IsNearestTo q ∧
      ∀ kind, literal.toFloat? kind = toFloat?.atPrecision kind d := by
  cases h with
  | int i => exact ⟨.ofInt i.val, Binary64.isNearestTo_ofInt i.val, fun _ => rfl⟩
  | @float x hx => exact ⟨x, Binary64.isNearestTo_value hx, fun _ => rfl⟩
  | text t ht =>
    refine ⟨.ofDecimal t.decimal, Binary64.isNearestTo_ofDecimal t.decimal, fun kind => ?_⟩
    rw [Literal.toFloat?, ← ht, Binary64.ofChars?_of_decimal t.ofChars?_chars]
    rfl

variable {ρ : Type} {catalog : Catalog ρ} {type : FieldType ρ} {literal : Literal} {q : ℚ}

/-- What a single-precision field should make of a literal for the number `q`: the single-precision
number nearest to it, and an error if it is greater than all of them. -/
def IsRoundedOnce (catalog : Catalog ρ) (type : FieldType ρ) (literal : Literal) (q : ℚ) : Prop :=
  (|q| ≤ Binary64.largestSingle →
    ∃ x : Binary64, literal.coerce catalog type = .ok (.float x) ∧ x.IsNearestSingle q) ∧
  (Binary64.largestSingle < |q| →
    literal.coerce catalog type = .error (.conversion literal.text "f32"))

theorem isRoundedOnce_of_error
    (h : literal.coerce catalog type = .error (.conversion literal.text "f32")) :
    literal.IsRoundedOnce catalog type q ↔ Binary64.largestSingle < |q| := by
  refine ⟨fun hround => ?_, fun hlt => ⟨fun hle => absurd hle (not_le.2 hlt), fun _ => h⟩⟩
  by_contra hle
  obtain ⟨x, hx, -⟩ := hround.1 (not_lt.1 hle)
  rw [h] at hx
  cases hx

theorem isRoundedOnce_of_ok {x : Binary64} (h : literal.coerce catalog type = .ok (.float x)) :
    literal.IsRoundedOnce catalog type q ↔
      |q| ≤ Binary64.largestSingle ∧ x.IsNearestSingle q := by
  constructor
  · intro hround
    have hle : |q| ≤ Binary64.largestSingle := by
      by_contra hlt
      have herror := hround.2 (not_le.1 hlt)
      rw [h] at herror
      cases herror
    obtain ⟨y, hy, hnear⟩ := hround.1 hle
    rw [h] at hy
    cases hy
    exact ⟨hle, hnear⟩
  · rintro ⟨hle, hnear⟩
    exact ⟨fun _ => ⟨x, h, hnear⟩, fun hlt => absurd hle (not_le.2 hlt)⟩

theorem coerce_of_denotes (catalog : Catalog ρ) (h : type.unwrap = .float .single)
    (hq : literal.Denotes q) :
    ∃ d : Binary64, d.IsNearestTo q ∧
      (∀ x, d.toSingle? = some x → literal.coerce catalog type = .ok (.float x)) ∧
      (d.toSingle? = none →
        literal.coerce catalog type = .error (.conversion literal.text "f32")) := by
  obtain ⟨d, hd, hfloat⟩ := hq.toFloat?
  have hnull : literal.isNull = false := by cases hq <;> rfl
  have hcoerceTo : literal.coerceTo? type.unwrap = d.toSingle?.map .float := by
    rw [h, coerceTo?, hfloat]
    rfl
  refine ⟨d, hd, fun x hx => (coerce_eq_ok_iff hnull).2 (by rw [hcoerceTo, hx]; rfl), ?_⟩
  intro hnone
  rw [coerce_of_none hnull (by rw [hcoerceTo, hnone]; rfl), h]
  rfl

open BinaryFormat in
/-- Where the double is finite, what it loses is listed. -/
theorem isRoundedOnce_iff_of_finite {negative : Bool} {u : Nat} {holds : double.Holds u}
    (hok : ∀ x, (Binary64.finite negative u holds).toSingle? = some x →
      literal.coerce catalog type = .ok (.float x))
    (herror : (Binary64.finite negative u holds).toSingle? = none →
      literal.coerce catalog type = .error (.conversion literal.text "f32"))
    (hnear : double.Nearest (|q| * Binary64.one) u) (hsign : if negative then q ≤ 0 else 0 ≤ q) :
    literal.IsRoundedOnce catalog type q ↔ ¬ (Binary64.finite negative u holds).Misrounded q := by
  have hgrid : double.OnGrid single.largest := double_finer_single.onGrid onGrid_largest_single
  rcases Nat.lt_or_ge single.largest u with hlt | hge
  · have hcoerce := herror (Binary64.toSingle?_of_lt hlt)
    have hlarge : Binary64.largestSingle < |q| := by
      by_contra hle
      have := hnear.le_of_le hgrid (Binary64.abs_le_largestSingle_iff.1 (not_lt.1 hle))
      omega
    refine iff_of_true ((isRoundedOnce_of_error hcoerce).2 hlarge) fun hmis => ?_
    cases hmis with
    | clipped _ _ _ _ hu => exact absurd hu hlt.ne'
    | halfway _ _ _ hle => exact absurd hlarge (not_lt.2 hle)
  · obtain ⟨s, hs, hto, hsnear, -⟩ := Binary64.toSingle?_of_le negative holds hge
    have hcoerce := hok _ hto
    have htwice := double_finer_single.nearest_iff_not_halfway two_le_precision_single
      (mul_nonneg (abs_nonneg q) Binary64.one_posQ.le) hnear hsnear
    rw [isRoundedOnce_of_ok hcoerce]
    constructor
    · rintro ⟨hle, _, _, _, hx, hnearest, -⟩ hmis
      cases hx
      cases hmis with
      | clipped _ _ _ hlarge => exact absurd hlarge (not_lt.2 hle)
      | halfway _ _ _ _ hhalf => exact htwice.1 hnearest hhalf
    · intro hno
      have hle : |q| ≤ Binary64.largestSingle := by
        by_contra hlarge
        have hlarge : Binary64.largestSingle < |q| := not_le.1 hlarge
        have hfrom : (single.largest : ℚ) ≤ |q| * Binary64.one :=
          ((div_lt_iff₀ Binary64.one_posQ).1 hlarge).le
        have hu : u = single.largest := Nat.le_antisymm hge (hnear.ge_of_ge hgrid hfrom)
        exact hno (.clipped negative u holds hlarge hu)
      exact ⟨hle, negative, s, hs, rfl,
        htwice.2 fun hhalf => hno (.halfway negative u holds hle hhalf), hsign⟩

/-- **Literals are rounded twice for single-precision fields**, first to a double `d`. For the value
of `d` all is well, unless `d` is infinite, when it is taken as it is. For the number that the
literal denotes it is well just where the first rounding did not lose what matters. -/
theorem coerce_single (h : type.unwrap = .float .single) (hq : literal.Denotes q) :
    ∃ d : Binary64, d.IsNearestTo q ∧
      (d.isFinite = true → literal.IsRoundedOnce catalog type d.value) ∧
      (d.isFinite = false → literal.coerce catalog type = .ok (.float d)) ∧
      (literal.IsRoundedOnce catalog type q ↔ ¬ d.Misrounded q) := by
  obtain ⟨d, hd, hok, herror⟩ := coerce_of_denotes catalog h hq
  refine ⟨d, hd, ?_⟩
  obtain ⟨negative, u, heq, hnear, hsign⟩ := hd
  rcases Nat.lt_or_ge u (2 ^ BinaryFormat.double.bound) with hlt | hge
  · obtain ⟨holds, heq⟩ : ∃ holds, d = .finite negative u holds :=
      ⟨_, heq.trans (Binary64.ofUnits_of_lt hnear.onGrid hlt)⟩
    subst heq
    have hself : BinaryFormat.double.Nearest
        (|(Binary64.finite negative u holds).value| * Binary64.one) u := by
      rw [Binary64.abs_value_mul_one]
      exact .self hnear.onGrid
    have hvalue := Binary64.sign_value_finite negative u holds
    refine ⟨fun _ => (isRoundedOnce_iff_of_finite hok herror hself hvalue).2 ?_, nofun,
      isRoundedOnce_iff_of_finite hok herror hnear hsign⟩
    intro hmis
    cases hmis with
    | clipped _ _ _ hlarge hu =>
      exact absurd (Binary64.abs_value_le_largestSingle_iff.2 hu.le) (not_le.2 hlarge)
    | halfway _ _ _ _ hhalf =>
      obtain ⟨_, -, -, hside⟩ := hhalf
      rw [Binary64.abs_value_mul_one] at hside
      rcases hside with ⟨hside, -⟩ | ⟨hside, -⟩ <;> exact absurd hside (lt_irrefl _)
  · rw [Binary64.ofUnits_of_le hge] at heq
    subst heq
    have hcoerce := hok (.infinite negative) rfl
    refine ⟨nofun, fun _ => hcoerce, ?_⟩
    rw [isRoundedOnce_of_ok hcoerce]
    refine iff_of_false ?_ (not_not.2 (.overflow negative))
    rintro ⟨-, _, _, _, hx, -⟩
    cases hx

theorem coerce_single_tenth : ∃ d : Binary64, d.IsNearestTo (1 / 10) ∧
    (d.isFinite = true →
      (str " .1").IsRoundedOnce Sample.catalog (.optional (.float .single)) d.value) ∧
    (d.isFinite = false →
      (str " .1").coerce Sample.catalog (.optional (.float .single)) = .ok (.float d)) ∧
    ((str " .1").IsRoundedOnce Sample.catalog (.optional (.float .single)) (1 / 10) ↔
      ¬ d.Misrounded (1 / 10)) := by
  have hvalue : DecimalNumeral.value
      ⟨.none, [], some ['1'], none, List.all_eq_true.1 rfl, by decide, by simp⟩ = 1 / 10 := by
    show Decimal.value ⟨false, 1, -1⟩ = 1 / 10
    norm_num [Decimal.value]
  have hdenotes : (str " .1").Denotes (1 / 10) := hvalue ▸ .text _ (by decide)
  exact coerce_single rfl hdenotes

/-- A whole number just above the middle of two single-precision ones, 2^60 and 2^60 + 2^37. -/
def aboveMiddle : Int128 := ⟨1152921573326323713, by decide, by decide⟩

/-- The lower neighbour of `aboveMiddle` is taken for it, though the upper one is nearer, and a
numeral that is too large even for double precision is taken at all. -/
theorem not_isRoundedOnce_aboveMiddle :
    ((int aboveMiddle).Denotes 1152921573326323713 ∧
      ¬ (int aboveMiddle).IsRoundedOnce Sample.catalog (.float .single) 1152921573326323713) ∧
    (str "1e400").Denotes (10 ^ 400) ∧
      ¬ (str "1e400").IsRoundedOnce Sample.catalog (.float .single) (10 ^ 400) := by
  refine ⟨⟨?_, ?_⟩, ?_, ?_⟩
  · have hvalue : (aboveMiddle.val : ℚ) = 1152921573326323713 := by norm_num [aboveMiddle]
    exact hvalue ▸ .int aboveMiddle
  · have hcoerce : (int aboveMiddle).coerce Sample.catalog (.float .single) =
        .ok (.float (.ofInt 1152921504606846976)) := by decide +kernel
    have hlower : (Binary64.ofInt 1152921504606846976).toInt? = some 1152921504606846976 := by
      decide +kernel
    have hupper : (Binary64.ofInt 1152921642045800448).toInt? = some 1152921642045800448 := by
      decide +kernel
    have hlower := Binary64.toInt?_eq_some_iff.1 hlower
    have hupper := Binary64.toInt?_eq_some_iff.1 hupper
    rw [isRoundedOnce_of_ok hcoerce]
    rintro ⟨-, hnear⟩
    have hle := hnear.abs_sub_le hupper.1 (by decide +kernel)
    rw [hlower.2, hupper.2] at hle
    norm_num at hle
  · have hvalue : DecimalNumeral.value
        ⟨.none, ['1'], none,
          some ('e', ⟨.none, ['4', '0', '0'], List.all_eq_true.1 rfl, by decide⟩),
          List.all_eq_true.1 rfl, by decide, by decide⟩ = 10 ^ 400 := by
      show Decimal.value ⟨false, 1, 400⟩ = 10 ^ 400
      norm_num [Decimal.value]
    exact hvalue ▸ .text _ (by decide)
  · have hcoerce : (str "1e400").coerce Sample.catalog (.float .single) =
        .ok (.float (.infinite false)) := by decide +kernel
    rw [isRoundedOnce_of_ok hcoerce]
    rintro ⟨-, _, _, _, hx, -⟩
    cases hx

end Literal

end RecordFilter
