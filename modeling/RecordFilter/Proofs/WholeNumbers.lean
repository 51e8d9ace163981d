import RecordFilter.Proofs.Numerals
import RecordFilter.Coercion
import RecordFilter.Samples

/-!
# Literals for integer fields

A literal stands for a whole number if it is that number, a float of just that value, or its numeral
between blanks. `coerce_int_iff`: an integer field takes the literals that stand for a number of its
kind, and takes them for that number. On the way a float is compared with bounds that are rounded
themselves, and numbers of any size pass through 128 bits, but neither lets a wrong number in or
keeps a right one out: rounding a bound passes no float, and what 128 bits cannot hold belongs to no
kind.
-/

namespace RecordFilter

-- Powers are the repeated products of core, whatever else is imported beside this module.
attribute [local instance (high)] instPowNat

/-! ## Kinds within 128 bits -/

theorem IntKind.contains_iff {kind : IntKind} {i : Int} :
    kind.contains i = true ↔ kind.low ≤ i ∧ i ≤ kind.high := by
  simp [contains]

/-- No kind has the least or the greatest number of 128 bits. -/
theorem IntKind.bounds (kind : IntKind) :
    -2 ^ (127 : Nat) < kind.low ∧ kind.high < 2 ^ (127 : Nat) - 1 := by
  cases kind <;> decide

namespace Int128

theorem eq_of_val_eq {i j : Int128} (h : i.val = j.val) : i = j := by
  cases i
  cases j
  cases h
  rfl

theorem clamp_of_bounds {i : Int} (h : -2 ^ (127 : Nat) ≤ i ∧ i < 2 ^ (127 : Nat)) :
    clamp i = ⟨i, h.1, h.2⟩ := dif_pos h

/-- A number that was clamped is the least or the greatest one. -/
theorem val_clamp {i : Int} (hlow : -2 ^ (127 : Nat) < (clamp i).val)
    (hhigh : (clamp i).val < 2 ^ (127 : Nat) - 1) : (clamp i).val = i := by
  unfold clamp at hlow hhigh ⊢
  split
  · rfl
  · next h =>
    rw [dif_neg h] at hlow hhigh
    split at hlow
    · exact absurd hlow (lt_irrefl _)
    · next hpos =>
      rw [if_neg hpos] at hhigh
      exact absurd hhigh (lt_irrefl _)

theorem ofChars?_eq_some_iff {cs : List Char} {i : Int128} :
    ofChars? cs = some i ↔ ∃ t : IntNumeral, t.chars = cs ∧ t.value = i.val := by
  rw [ofChars?, Option.bind_eq_some_iff, ← readInt?_eq_some_iff]
  constructor
  · rintro ⟨n, hn, hi⟩
    rw [hn, ofInt?_eq_some_iff.1 hi]
  · exact fun h => ⟨i.val, h, ofInt?_val i⟩

end Int128

/-! ## What stands for a number -/

namespace Literal

/-- A literal stands for a whole number: the number itself, a float of that value, or a numeral for
it between blanks. -/
inductive DenotesInt : Literal → Int → Prop
  | int (i : Int128) : DenotesInt (int i) i.val
  | float {x : Binary64} {n : Int} : x.isFinite = true → x.value = n → DenotesInt (float x) n
  | text {s : String} (t : IntNumeral) : t.chars = Text.trimChars s.toList →
      DenotesInt (str s) t.value

theorem inKind_eq_some_iff {kind : IntKind} {i j : Int128} :
    toInt?.inKind kind i = some j ↔ (kind.low ≤ j.val ∧ j.val ≤ kind.high) ∧ i = j := by
  rw [toInt?.inKind, ← IntKind.contains_iff]
  split
  · next h =>
    rw [Option.some_inj]
    exact ⟨fun hij => ⟨hij ▸ h, hij⟩, fun hij => hij.2⟩
  · next h => exact ⟨nofun, fun hij => absurd (hij.2 ▸ hij.1) h⟩

/-- Comparing with rounded bounds refuses no number of the kind. -/
theorem within_rounded_bounds {kind : IntKind} {x : Binary64} {n : Int}
    (hx : x.isFinite = true) (hn : x.value = n) (h : kind.low ≤ n ∧ n ≤ kind.high) :
    (x.isLess (.ofInt kind.low) || (Binary64.ofInt kind.high).isLess x) = false := by
  have hlow : ((kind.low : Int) : ℚ) ≤ x.value := by
    rw [hn]
    exact_mod_cast h.1
  have hhigh : x.value ≤ ((kind.high : Int) : ℚ) := by
    rw [hn]
    exact_mod_cast h.2
  rw [(Binary64.isNearestTo_ofInt kind.low).isLess_of_le hx hlow,
    (Binary64.isNearestTo_ofInt kind.high).isLess_of_ge hx hhigh]
  rfl

theorem toInt?_float_eq_some_iff {kind : IntKind} {x : Binary64} {i : Int128} :
    (float x).toInt? kind = some i ↔
      (kind.low ≤ i.val ∧ i.val ≤ kind.high) ∧ x.isFinite = true ∧ x.value = i.val := by
  obtain ⟨hleast, hgreatest⟩ := kind.bounds
  rw [toInt?, Option.bind_eq_some_iff]
  constructor
  · rintro ⟨n, hn, hi⟩
    obtain ⟨hx, hvalue⟩ := Binary64.toInt?_eq_some_iff.1 hn
    split at hi
    · cases hi
    · obtain ⟨hkind, rfl⟩ := inKind_eq_some_iff.1 hi
      have hclamp : (Int128.clamp n).val = n := Int128.val_clamp (by omega) (by omega)
      exact ⟨hkind, hx, by rw [hclamp, hvalue]⟩
  · rintro ⟨hkind, hx, hvalue⟩
    refine ⟨i.val, Binary64.toInt?_eq_some_iff.2 ⟨hx, hvalue⟩, ?_⟩
    rw [within_rounded_bounds hx hvalue hkind, if_neg Bool.false_ne_true,
      Int128.clamp_of_bounds ⟨i.lower, i.upper⟩]
    exact inKind_eq_some_iff.2 ⟨hkind, rfl⟩

/-- A literal becomes a number of the kind that it stands for. -/
theorem toInt?_eq_some_iff {kind : IntKind} {literal : Literal} {i : Int128} :
    literal.toInt? kind = some i ↔
      (kind.low ≤ i.val ∧ i.val ≤ kind.high) ∧ literal.DenotesInt i.val := by
  cases literal with
  | null | bool | enum => exact ⟨nofun, fun h => nomatch h.2⟩
  | int value =>
    rw [toInt?, inKind_eq_some_iff]
    refine and_congr_right fun _ => ⟨fun h => h ▸ .int value, fun h => ?_⟩
    generalize hn : i.val = n at h
    cases h
    exact (Int128.eq_of_val_eq hn).symm
  | float x =>
    rw [toInt?_float_eq_some_iff]
    refine and_congr_right fun _ => ⟨fun h => .float h.1 h.2, fun h => ?_⟩
    cases h with
    | float hx hvalue => exact ⟨hx, hvalue⟩
  | str s =>
    rw [toInt?, Option.bind_eq_some_iff]
    constructor
    · rintro ⟨j, hj, hi⟩
      obtain ⟨hkind, rfl⟩ := inKind_eq_some_iff.1 hi
      obtain ⟨t, ht, hvalue⟩ := Int128.ofChars?_eq_some_iff.1 hj
      exact ⟨hkind, hvalue ▸ .text t ht⟩
    · rintro ⟨hkind, h⟩
      generalize hn : i.val = n at h
      cases h with
      | text t ht =>
        exact ⟨i, Int128.ofChars?_eq_some_iff.2 ⟨t, ht, hn.symm⟩,
          inKind_eq_some_iff.2 ⟨hkind, rfl⟩⟩

/-- **Integer fields take exact numbers only.** A literal becomes the number `n` just when `n` is of
the kind and the literal stands for it, and a literal that stands for no number of the kind is a
conversion error with its text and the name of the kind. -/
theorem coerce_int_iff {ρ : Type} (catalog : Catalog ρ) {type : FieldType ρ} {kind : IntKind}
    (h : type.unwrap = .int kind) (literal : Literal) :
    (∀ n : Int, (∃ i : Int128, i.val = n ∧ literal.coerce catalog type = .ok (.int i)) ↔
      (kind.low ≤ n ∧ n ≤ kind.high) ∧ literal.DenotesInt n) ∧
    (literal ≠ .null → (¬ ∃ n, (kind.low ≤ n ∧ n ≤ kind.high) ∧ literal.DenotesInt n) →
      literal.coerce catalog type = .error (.conversion literal.text kind.name)) := by
  obtain ⟨hleast, hgreatest⟩ := kind.bounds
  by_cases hnull : literal = .null
  · subst hnull
    refine ⟨fun n => ⟨?_, fun hn => nomatch hn.2⟩, fun hne => absurd rfl hne⟩
    rintro ⟨i, -, hi⟩
    rw [coerce_null] at hi
    split at hi <;> cases hi
  have hnull := isNull_of_ne hnull
  have hcoerceTo : literal.coerceTo? type.unwrap = (literal.toInt? kind).map .int := by
    rw [h, coerceTo?]
  have hok (i : Int128) : literal.coerce catalog type = .ok (.int i) ↔
      (kind.low ≤ i.val ∧ i.val ≤ kind.high) ∧ literal.DenotesInt i.val := by
    rw [coerce_eq_ok_iff hnull, hcoerceTo, ← toInt?_eq_some_iff, Option.map_eq_some_iff]
    simp
  refine ⟨fun n => ⟨?_, fun hn => ?_⟩, fun _ hno => ?_⟩
  · rintro ⟨i, rfl, hi⟩
    exact (hok i).1 hi
  · obtain ⟨i, rfl⟩ : ∃ i : Int128, i.val = n := ⟨⟨n, by omega, by omega⟩, rfl⟩
    exact ⟨i, rfl, (hok i).2 hn⟩
  · have hnone : literal.toInt? kind = none :=
      Option.eq_none_iff_forall_ne_some.2 fun i hi => hno ⟨i.val, toInt?_eq_some_iff.1 hi⟩
    rw [coerce_of_none hnull (by rw [hcoerceTo, hnone]; rfl), h]
    rfl

/-- The greatest number of 64 bits is taken from its digits, and the number after it, which is what
the bound is as a float, is refused. -/
theorem coerce_int_iff_uint64 :
    (∃ i : Int128, i.val = 2 ^ (64 : Nat) - 1 ∧
      (str " +0018446744073709551615\t").coerce Sample.catalog (.optional (.int .uint64)) =
        .ok (.int i)) ∧
    (float (.ofInt (2 ^ (64 : Nat)))).coerce Sample.catalog (.optional (.int .uint64)) =
      .error (.conversion "18446744073709552000" "u64") := by
  have hunwrap : (.optional (.int .uint64) : FieldType Sample).unwrap = .int .uint64 := rfl
  constructor
  · have hdenotes := DenotesInt.text (s := " +0018446744073709551615\t")
      ⟨.plus, "0018446744073709551615".toList, List.all_eq_true.1 rfl, by decide⟩ (by decide)
    exact ((coerce_int_iff Sample.catalog hunwrap _).1 _).2 ⟨by decide, hdenotes⟩
  · have hwhole : (Binary64.ofInt (2 ^ (64 : Nat))).toInt? = some (2 ^ (64 : Nat)) := by
      decide +kernel
    have htext : (float (.ofInt (2 ^ (64 : Nat)))).text = "18446744073709552000" := by
      decide +kernel
    generalize Binary64.ofInt (2 ^ (64 : Nat)) = x at hwhole htext ⊢
    rw [← htext]
    refine (coerce_int_iff Sample.catalog hunwrap (float x)).2 nofun ?_
    rintro ⟨n, ⟨-, hn⟩, hdenotes⟩
    cases hdenotes with
    | float hx hvalue =>
      have htoo : some n = some (2 ^ (64 : Nat)) :=
        (Binary64.toInt?_eq_some_iff.2 ⟨hx, hvalue⟩).symm.trans hwhole
      rw [Option.some.inj htoo] at hn
      exact absurd hn (by decide)

end Literal

end RecordFilter
