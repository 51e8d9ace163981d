import RecordFilter.Proofs.Rounding

/-!
# Binary64 numbers as exact numbers

Every finite binary64 number is a rational number, its `value`. The other way, a rational number has
a nearest binary64 number (`IsNearestTo`), which is infinite where rounding without a bound would
leave the format. A whole number is converted to the nearest one (`isNearestTo_ofInt`), and the
conversion never passes another binary64 number, so that comparing with a converted bound refuses
nothing within the bound (`IsNearestTo.isLess_of_le`, `IsNearestTo.isLess_of_ge`).
-/

namespace RecordFilter

-- Powers are the repeated products of core, whatever else is imported beside this module.
attribute [local instance (high)] instPowNat

namespace BinaryFormat

theorem two_le_precision_double : 2 ≤ double.precision := by decide

theorem two_le_precision_single : 2 ≤ single.precision := by decide

/-- Double precision has all single-precision magnitudes and the middles between them. -/
theorem double_finer_single : double.Finer single := ⟨by decide, by decide⟩

end BinaryFormat

namespace Binary64

theorem one_pos : 0 < one := by
  unfold one
  exact Nat.two_pow_pos 1074

theorem one_posQ : (0 : ℚ) < one := by exact_mod_cast one_pos

/-- A magnitude in units with a sign. -/
def signed (negative : Bool) (units : Nat) : Int := if negative then -units else units

/-- The exact value of a finite number. The special numbers have none, and zero stands in. -/
def value : Binary64 → ℚ
  | finite negative units _ => signed negative units / one
  | _ => 0

theorem natAbs_signed (negative : Bool) (units : Nat) : (signed negative units).natAbs = units := by
  cases negative <;> simp [signed]

theorem abs_signed (negative : Bool) (units : Nat) :
    |((signed negative units : Int) : ℚ)| = units := by
  cases negative <;> simp [signed]

theorem abs_value_finite (negative : Bool) (units : Nat) (h) :
    |(finite negative units h).value| = (units : ℚ) / one := by
  rw [value, abs_div, abs_signed, abs_of_pos one_posQ]

theorem abs_value_mul_one (negative : Bool) (units : Nat) (h) :
    |(finite negative units h).value| * one = units := by
  rw [abs_value_finite, div_mul_cancel₀ _ one_posQ.ne']

theorem sign_value_finite (negative : Bool) (units : Nat) (h) :
    if negative then (finite negative units h).value ≤ 0
      else 0 ≤ (finite negative units h).value := by
  have hunits : (0 : ℚ) ≤ units := units.cast_nonneg
  cases negative with
  | true =>
    rw [if_pos rfl, value, signed, if_pos rfl, Int.cast_neg, Int.cast_natCast]
    exact div_nonpos_of_nonpos_of_nonneg (neg_nonpos.2 hunits) one_posQ.le
  | false =>
    rw [if_neg Bool.false_ne_true, value, signed, if_neg Bool.false_ne_true, Int.cast_natCast]
    exact div_nonneg hunits one_posQ.le

/-- A number is taken for a whole one when its value is that. -/
theorem toInt?_eq_some_iff {x : Binary64} {n : Int} :
    x.toInt? = some n ↔ x.isFinite = true ∧ x.value = n := by
  cases x with
  | nan | infinite => simp [toInt?, isFinite]
  | finite negative units h =>
    have hvalue : (finite negative units h).value = n ↔ signed negative units = n * one := by
      rw [value, div_eq_iff one_posQ.ne']
      exact_mod_cast Iff.rfl
    have hone : (one : Int) ≠ 0 := by exact_mod_cast one_pos.ne'
    rw [hvalue, toInt?]
    simp only [isFinite, true_and]
    constructor
    · intro hsome
      split at hsome
      · next hwhole =>
        have hunits : (units : Int) = (units / one : Nat) * one := by
          exact_mod_cast (Nat.div_mul_cancel (Nat.dvd_of_mod_eq_zero hwhole)).symm
        rw [← Option.some.inj hsome, signed]
        split
        · rw [Int.neg_mul, ← hunits]
        · exact hunits
      · cases hsome
    · intro hn
      have hunits : units = n.natAbs * one := by
        have habs := congrArg Int.natAbs hn
        rw [Int.natAbs_mul, Int.natAbs_natCast] at habs
        rw [← habs, signed]
        split <;> simp
      have hwhole : units % one = 0 := by rw [hunits, Nat.mul_mod_left]
      rw [if_pos hwhole, Option.some_inj, hunits, Nat.mul_div_cancel _ one_pos]
      refine Int.eq_of_mul_eq_mul_right hone ?_
      rw [← hn, signed, hunits]
      split <;> push_cast <;> ring

/-! ## The nearest binary64 number -/

/-- The binary64 number nearest to a rational number, infinite where rounding without a bound leaves
the format. -/
def IsNearestTo (x : Binary64) (q : ℚ) : Prop :=
  ∃ negative h, x = ofUnits negative h ∧ BinaryFormat.double.Nearest (|q| * one) h ∧
    if negative then q ≤ 0 else 0 ≤ q

theorem ofUnits_of_lt {negative : Bool} {u : Nat} (h : BinaryFormat.double.OnGrid u)
    (hlt : u < 2 ^ BinaryFormat.double.bound) :
    ofUnits negative u = finite negative u (BinaryFormat.holds_iff.2 ⟨hlt, h⟩) := dif_pos _

theorem ofUnits_of_le {negative : Bool} {u : Nat} (hle : 2 ^ BinaryFormat.double.bound ≤ u) :
    ofUnits negative u = infinite negative :=
  dif_neg fun h => absurd h.1 (by omega)

theorem place?_finite (negative : Bool) (u : Nat) (h : BinaryFormat.double.Holds u) :
    (finite negative u h).place? = some (signed negative u) := rfl

theorem place?_infinite (negative : Bool) :
    (infinite negative).place? = some (signed negative (2 ^ BinaryFormat.double.bound)) := by
  have hbound : ((2 ^ BinaryFormat.double.bound : Nat) : Int) = 2 ^ (2098 : Nat) := by
    rw [Int.natCast_pow]
    rfl
  rw [signed, hbound]
  rfl

theorem place?_ofUnits (negative : Bool) {u : Nat} (h : BinaryFormat.double.OnGrid u) :
    (ofUnits negative u).place? =
      some (signed negative (min u (2 ^ BinaryFormat.double.bound))) := by
  rcases Nat.lt_or_ge u (2 ^ BinaryFormat.double.bound) with hlt | hge
  · rw [ofUnits_of_lt h hlt, Nat.min_eq_left hlt.le, place?_finite]
  · rw [ofUnits_of_le hge, Nat.min_eq_right hge, place?_infinite]

/-- A fraction of units is rounded to the nearest number. -/
theorem isNearestTo_nearest {negative : Bool} {num den : Nat} {q : ℚ} (hden : 0 < den)
    (hq : |q| * one = (num : ℚ) / den) (hsign : if negative then q ≤ 0 else 0 ≤ q) :
    (nearest negative num den).IsNearestTo q := by
  refine ⟨negative, _, rfl, ?_, hsign⟩
  rw [hq]
  exact BinaryFormat.nearest_round BinaryFormat.two_le_precision_double num hden

/-- **Whole numbers are converted to the nearest number.** -/
theorem isNearestTo_ofInt (i : Int) : (ofInt i).IsNearestTo i := by
  refine isNearestTo_nearest Nat.one_pos ?_ ?_
  · rw [Nat.cast_one, div_one, Nat.cast_mul, Nat.cast_natAbs, Int.cast_abs]
  · by_cases h : i < 0
    · simpa [h] using h.le
    · simpa [h] using Int.not_lt.1 h

/-- A finite number is nearest to its own value. -/
theorem isNearestTo_value {x : Binary64} (h : x.isFinite = true) : x.IsNearestTo x.value := by
  cases x with
  | nan | infinite => cases h
  | finite negative units holds =>
    refine ⟨negative, units, (dif_pos holds).symm, ?_, sign_value_finite negative units holds⟩
    rw [abs_value_mul_one]
    exact .self holds.2

/-- Rounding a magnitude never passes a place of the format. -/
theorem place_of_nearest {x : ℚ} (hx : 0 ≤ x) {u : Nat} (h : BinaryFormat.double.Nearest x u)
    {p : Int} (hp : BinaryFormat.double.Holds p.natAbs) :
    (x ≤ p → (min u (2 ^ BinaryFormat.double.bound) : Nat) ≤ p) ∧
      (p ≤ x → p ≤ (min u (2 ^ BinaryFormat.double.bound) : Nat)) := by
  obtain ⟨hbound, hgrid⟩ := hp
  have hle (hxp : x ≤ p.natAbs) : u ≤ p.natAbs := h.le_of_le hgrid hxp
  have hge (hpx : (p.natAbs : ℚ) ≤ x) : p.natAbs ≤ u := h.ge_of_ge hgrid hpx
  generalize 2 ^ BinaryFormat.double.bound = bound at hbound ⊢
  rcases lt_or_ge p 0 with hneg | hpos
  · have hnegQ : (p : ℚ) < 0 := by exact_mod_cast hneg
    exact ⟨fun hxp => absurd (hx.trans hxp) (not_le.2 hnegQ), fun _ => by omega⟩
  · have habs : (p.natAbs : ℚ) = p := by rw [Nat.cast_natAbs, abs_of_nonneg hpos]
    rw [habs] at hle hge
    exact ⟨fun hxp => by have := hle hxp; omega, fun hpx => by have := hge hpx; omega⟩

namespace IsNearestTo

variable {x y : Binary64} {q : ℚ}

/-- Where the nearest number lies: a place of the format is on the same side of it as of `q`. -/
theorem exists_place (h : x.IsNearestTo q) : ∃ l, x.place? = some l ∧
    ∀ p : Int, BinaryFormat.double.Holds p.natAbs →
      (q * one ≤ p → l ≤ p) ∧ (p ≤ q * one → p ≤ l) := by
  obtain ⟨negative, u, hx, hnear, hsign⟩ := h
  refine ⟨signed negative (min u (2 ^ BinaryFormat.double.bound)), ?_, fun p hp => ?_⟩
  · rw [hx, place?_ofUnits negative hnear.onGrid]
  have hnonneg : 0 ≤ |q| * one := mul_nonneg (abs_nonneg q) one_posQ.le
  cases negative with
  | true =>
    -- The mirror image of the other case.
    have hq : |q| * one = -(q * one) := by rw [abs_of_nonpos hsign, neg_mul]
    have hplace := place_of_nearest hnonneg hnear (p := -p) (by rwa [Int.natAbs_neg])
    rw [hq, Int.cast_neg, neg_le_neg_iff, neg_le_neg_iff] at hplace
    rw [signed, if_pos rfl]
    exact ⟨fun h => by have := hplace.2 h; omega, fun h => by have := hplace.1 h; omega⟩
  | false =>
    have hsign : 0 ≤ q := by simpa using hsign
    have hplace := place_of_nearest hnonneg hnear hp
    rw [abs_of_nonneg hsign] at hplace
    exact hplace

theorem isLess_eq_false {a b : Int} (hx : x.place? = some a) (hy : y.place? = some b)
    (h : b ≤ a) : x.isLess y = false := by
  have hne : compare a b ≠ .lt := fun hlt => absurd (compare_lt_iff_lt.1 hlt) (not_lt.2 h)
  rw [isLess, compare?, hx, hy]
  simpa using hne

/-- Nothing from `q` on is less than the number nearest to `q`. -/
theorem isLess_of_le (h : x.IsNearestTo q) (hy : y.isFinite = true) (hle : q ≤ y.value) :
    y.isLess x = false := by
  obtain ⟨l, hl, hside⟩ := h.exists_place
  cases y with
  | nan | infinite => cases hy
  | finite negative u holds =>
    rw [value, le_div_iff₀ one_posQ] at hle
    refine isLess_eq_false (place?_finite negative u holds) hl ((hside _ ?_).1 hle)
    rwa [natAbs_signed]

/-- Nothing up to `q` is greater than the number nearest to `q`. -/
theorem isLess_of_ge (h : x.IsNearestTo q) (hy : y.isFinite = true) (hge : y.value ≤ q) :
    x.isLess y = false := by
  obtain ⟨l, hl, hside⟩ := h.exists_place
  cases y with
  | nan | infinite => cases hy
  | finite negative u holds =>
    rw [value, div_le_iff₀ one_posQ] at hge
    refine isLess_eq_false hl (place?_finite negative u holds) ((hside _ ?_).2 hge)
    rwa [natAbs_signed]

end IsNearestTo

end Binary64

end RecordFilter
