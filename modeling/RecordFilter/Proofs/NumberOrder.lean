import RecordFilter.Comparison
import RecordFilter.Proofs.ExactValue

/-!
# Integers compared with floats

An integer that is compared with a float is rounded to binary64 first. Rounding never passes another
float, so the comparison never says that the smaller one of two numbers is the greater, nor that
equal ones differ. It may take different numbers to be equal, and that is all that can go wrong:
`Coarsens` says so of an order, and `compareField_coarsens` of the comparison.
-/

namespace RecordFilter

-- Powers are the repeated products of core, whatever else is imported beside this module.
attribute [local instance (high)] instPowNat

/-- The rational numbers, with infinities before and behind them. -/
abbrev ExactNumber := WithBot (WithTop ℚ)

/-- A rational number among them. -/
def ExactNumber.ofRat (q : ℚ) : ExactNumber := (q : WithTop ℚ)

/-- The exact value of a whole number. -/
def Int128.exact (i : Int128) : ExactNumber := .ofRat i.val

/-- The exact value of a binary64 number. Not-a-number has none, and zero stands in. -/
def Binary64.exact : Binary64 → ExactNumber
  | .infinite negative => if negative then ⊥ else ⊤
  | x => .ofRat x.value

namespace ExactNumber

@[simp] theorem ofRat_le_iff {q r : ℚ} : ofRat q ≤ ofRat r ↔ q ≤ r := by
  simp [ofRat]

@[simp] theorem ofRat_ne_top (q : ℚ) : ofRat q ≠ ⊤ :=
  fun h => WithTop.coe_ne_top (WithBot.coe_injective h)

@[simp] theorem ofRat_ne_bot (q : ℚ) : ofRat q ≠ ⊥ := WithBot.coe_ne_bot

end ExactNumber

/-- An order that is right about two numbers, unless it takes different ones to be equal. -/
structure Coarsens (o : Ordering) (x y : ExactNumber) : Prop where
  /-- Where it tells the numbers apart it is their order. -/
  order : o ≠ .eq → o = compare x y
  equal : x = y → o = .eq

/-- Places whose order never contradicts that of two numbers coarsen it. -/
theorem coarsens_compare {x y : ExactNumber} {l p : Int} (hle : x ≤ y → l ≤ p)
    (hge : y ≤ x → p ≤ l) : Coarsens (compare l p) x y := by
  constructor
  · intro hne
    rcases lt_trichotomy l p with hlt | heq | hgt
    · have hxy : x < y := not_le.1 fun h => absurd (hge h) (not_le.2 hlt)
      rw [compare_lt_iff_lt.2 hlt, compare_lt_iff_lt.2 hxy]
    · exact absurd (compare_eq_iff_eq.2 heq) hne
    · have hyx : y < x := not_le.1 fun h => absurd (hle h) (not_le.2 hgt)
      rw [compare_gt_iff_gt.2 hgt, compare_gt_iff_gt.2 hyx]
  · rintro rfl
    exact compare_eq_iff_eq.2 (le_antisymm (hle le_rfl) (hge le_rfl))

namespace Binary64

theorem exact_of_isFinite {x : Binary64} (h : x.isFinite = true) : x.exact = .ofRat x.value := by
  cases x with
  | finite => rfl
  | nan | infinite => cases h

/-- The infinities lie past all other numbers. -/
theorem natAbs_place_le {x : Binary64} {l : Int} (h : x.place? = some l) :
    l.natAbs ≤ 2 ^ BinaryFormat.double.bound := by
  cases x with
  | nan => cases h
  | infinite negative =>
    rw [place?_infinite, Option.some_inj] at h
    rw [← h, natAbs_signed]
  | finite negative units holds =>
    rw [place?_finite, Option.some_inj] at h
    rw [← h, natAbs_signed]
    exact holds.1.le

/-- **Rounding passes no place of the format**, the infinities included. -/
theorem IsNearestTo.exists_places {x y : Binary64} {q : ℚ} (h : x.IsNearestTo q) (hy : y ≠ .nan) :
    ∃ l p, x.place? = some l ∧ y.place? = some p ∧
      (.ofRat q ≤ y.exact → l ≤ p) ∧ (y.exact ≤ .ofRat q → p ≤ l) := by
  obtain ⟨l, hl, hside⟩ := h.exists_place
  refine ⟨l, ?_⟩
  cases y with
  | nan => exact absurd rfl hy
  | infinite negative =>
    have hbound := natAbs_place_le hl
    refine ⟨_, hl, place?_infinite negative, ?_⟩
    generalize 2 ^ BinaryFormat.double.bound = bound at hbound ⊢
    cases negative with
    | true =>
      have hplace : signed true bound ≤ l := by
        rw [signed, if_pos rfl]
        omega
      exact ⟨fun hq => absurd (le_bot_iff.1 hq) (ExactNumber.ofRat_ne_bot q), fun _ => hplace⟩
    | false =>
      have hplace : l ≤ signed false bound := by
        rw [signed, if_neg Bool.false_ne_true]
        omega
      exact ⟨fun _ => hplace, fun hq => absurd (top_le_iff.1 hq) (ExactNumber.ofRat_ne_top q)⟩
  | finite negative units holds =>
    refine ⟨_, hl, place?_finite negative units holds, ?_⟩
    have hplace := hside (signed negative units) (by rwa [natAbs_signed])
    unfold exact value
    rw [ExactNumber.ofRat_le_iff, ExactNumber.ofRat_le_iff, le_div_iff₀ one_posQ,
      div_le_iff₀ one_posQ]
    exact hplace

/-- **Comparing a rounded number** coarsens the order of the exact one, whichever comes first. -/
theorem IsNearestTo.exists_compare? {x y : Binary64} {q : ℚ} (h : x.IsNearestTo q) (hy : y ≠ .nan) :
    (∃ o, x.compare? y = some o ∧ Coarsens o (.ofRat q) y.exact) ∧
      ∃ o, y.compare? x = some o ∧ Coarsens o y.exact (.ofRat q) := by
  obtain ⟨l, p, hl, hp, hle, hge⟩ := h.exists_places hy
  unfold compare?
  rw [hl, hp]
  exact ⟨⟨_, rfl, coarsens_compare hle hge⟩, ⟨_, rfl, coarsens_compare hge hle⟩⟩

end Binary64

/-- Whole numbers have the order of their values. -/
theorem compare_exact (a b : Int128) : compare a.exact b.exact = compare a.val b.val := by
  have hmono : StrictMono fun i : Int => ExactNumber.ofRat i := by
    intro i j hij
    rw [← not_le, ExactNumber.ofRat_le_iff, not_le]
    exact_mod_cast hij
  rw [← cmp_eq_compare, ← cmp_eq_compare]
  exact hmono.cmp_map_eq a.val b.val

/-- **Comparing numbers never reverses their order.** An integer and a float that is a number at all
are comparable, whichever of them is the field's, and if they are told apart it is by their exact
order, so that only equality may be wrong. Two integers have their exact order. -/
theorem compareField_coarsens (a : Int128) :
    (∀ b : Binary64, b ≠ .nan →
      (∃ o, compareField (.int a) (.float b) = some o ∧ Coarsens o a.exact b.exact) ∧
      ∃ o, compareField (.float b) (.int a) = some o ∧ Coarsens o b.exact a.exact) ∧
    ∀ b : Int128, compareField (.int a) (.int b) = some (compare a.exact b.exact) := by
  constructor
  · intro b hb
    rw [compareField, compareField]
    exact (Binary64.isNearestTo_ofInt a.val).exists_compare? hb
  · intro b
    rw [compareField, compare_exact]

/-- The first whole number that binary64 does not have. -/
def firstBetween : Int128 := ⟨9007199254740993, by decide, by decide⟩

/-- It is taken to be equal to the float before it, though it is greater, and any integer is apart
from the infinities. -/
theorem compareField_coarsens_firstBetween :
    (compareField (.int firstBetween) (.float (.ofInt 9007199254740992)) = some .eq ∧
      Coarsens .eq firstBetween.exact (Binary64.ofInt 9007199254740992).exact ∧
      compare firstBetween.exact (Binary64.ofInt 9007199254740992).exact = .gt) ∧
    ∃ o, compareField (.float (.infinite true)) (.int firstBetween) = some o ∧
      Coarsens o ⊥ firstBetween.exact := by
  obtain ⟨hfloat, -⟩ := compareField_coarsens firstBetween
  have hequal : compareField (.int firstBetween) (.float (.ofInt 9007199254740992)) = some .eq := by
    decide +kernel
  have hwhole : (Binary64.ofInt 9007199254740992).toInt? = some 9007199254740992 := by
    decide +kernel
  obtain ⟨hfinite, hvalue⟩ := Binary64.toInt?_eq_some_iff.1 hwhole
  obtain ⟨o, ho, hcoarsens⟩ := (hfloat (.ofInt 9007199254740992) (by decide +kernel)).1
  rw [hequal, Option.some_inj] at ho
  refine ⟨⟨hequal, ho ▸ hcoarsens, ?_⟩, (hfloat (.infinite true) (by decide)).2⟩
  rw [compare_gt_iff_gt, Binary64.exact_of_isFinite hfinite, hvalue, ← not_le,
    Int128.exact, ExactNumber.ofRat_le_iff]
  norm_num [firstBetween]

end RecordFilter
