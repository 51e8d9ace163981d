import Mathlib.Data.Char
import RecordFilter.Samples
import RecordFilter.Text.Order
import RecordFilter.ValueTest

/-!
# Text folded while it is compared

Comparing a field with a folded literal never builds the field's folded form, and can stop in the
middle of what one character is lowered to. The outcome is nevertheless the one that the folded
form would give: a run of lowered characters is compared as if the rest of the folded text followed
it (`compareRun_eq`, `matchRun_eq`), whatever characters are lowered to. So for each operator the
test of a text is the plain relation of the two folded texts (`textHolds_iff_relates`).
-/

namespace RecordFilter

/-! ## The order of texts -/

namespace Text

theorem compareChars_eq_eq_iff {s t : List Char} : compareChars s t = .eq ↔ s = t := by
  induction s generalizing t with
  | nil => cases t <;> simp [compareChars]
  | cons a s ih =>
    cases t with
    | nil => simp [compareChars]
    | cons b t =>
      rw [compareChars, List.cons.injEq, ← ih, ← compare_eq_iff_eq (a := a)]
      cases compare a b <;> simp

theorem compareChars_eq_lt_iff {s t : List Char} : compareChars s t = .lt ↔ s < t := by
  induction s generalizing t with
  | nil => cases t <;> simp [compareChars]
  | cons a s ih =>
    cases t with
    | nil => simp [compareChars]
    | cons b t =>
      rw [compareChars, List.cons_lt_cons_iff, ← ih, ← compare_lt_iff_lt (a := a),
        ← compare_eq_iff_eq (a := a)]
      cases compare a b <;> simp

theorem compareChars_swap (s t : List Char) : (compareChars s t).swap = compareChars t s := by
  induction s generalizing t with
  | nil => cases t <;> rfl
  | cons a s ih =>
    cases t with
    | nil => rfl
    | cons b t =>
      have hswap : compare b a = (compare a b).swap := Std.OrientedOrd.eq_swap
      rw [compareChars, compareChars, hswap, ← ih]
      cases compare a b <;> rfl

theorem compareChars_eq_gt_iff {s t : List Char} : compareChars s t = .gt ↔ t < s := by
  rw [← compareChars_eq_lt_iff, ← compareChars_swap s t]
  cases compareChars s t <;> simp

/-- A text comes before each one that it is a proper start of. -/
theorem lt_append_cons (t : List Char) (c : Char) (rest : List Char) : t < t ++ c :: rest := by
  induction t with
  | nil => exact List.nil_lt_cons _ _
  | cons b t ih => exact List.cons_lt_cons_iff.2 (.inr ⟨rfl, ih⟩)

/-! ## Runs of lowered characters -/

/-- A run is compared like its characters with the rest of the text after them. -/
theorem compareRun_eq {rest : List Char → Ordering} {cs : List Char}
    (h : ∀ t, rest t = compareChars cs t) (run t : List Char) :
    compareRun run t rest = compareChars (run ++ cs) t := by
  induction run generalizing t with
  | nil => exact h t
  | cons a run ih =>
    cases t with
    | nil => rfl
    | cons b t =>
      cases hab : compare a b <;> simp [compareRun, compareChars, hab, ih]

/-- A run is matched like its characters with the rest of the text after them. -/
theorem matchRun_eq {rest : List Char → Bool} {cs : List Char}
    (h : ∀ t, rest t = t.isPrefixOf cs) (run t : List Char) :
    matchRun run t rest = t.isPrefixOf (run ++ cs) := by
  induction run generalizing t with
  | nil =>
    cases t with
    | nil => rfl
    | cons b t => exact h (b :: t)
  | cons a run ih =>
    cases t with
    | nil => rfl
    | cons b t => rw [matchRun, ih, List.cons_append, List.isPrefixOf_cons_cons, Bool.beq_comm]

section Streaming

variable (s t : List Char) (lower : Char → List Char)

theorem compareFolded_eq : compareFolded s t lower = compareChars (foldChars s lower) t := by
  induction s generalizing t with
  | nil => cases t <;> rfl
  | cons c s ih =>
    rw [compareFolded, foldChars_cons]
    exact compareRun_eq ih (lower c) t

theorem startsWithFolded_eq : startsWithFolded s t lower = t.isPrefixOf (foldChars s lower) := by
  induction s generalizing t with
  | nil => cases t <;> rfl
  | cons c s ih =>
    cases t with
    -- Nothing is lowered once the whole text has been found.
    | nil => rfl
    | cons b t =>
      rw [foldChars_cons]
      exact matchRun_eq ih (lower c) (b :: t)

theorem eqFolded_iff : eqFolded s t lower = true ↔ foldChars s lower = t := by
  rw [eqFolded, compareFolded_eq, beq_iff_eq, compareChars_eq_eq_iff]

theorem startsWithFolded_iff : startsWithFolded s t lower = true ↔ t <+: foldChars s lower := by
  rw [startsWithFolded_eq, List.isPrefixOf_iff_prefix]

end Streaming

theorem hasSuffix_iff {s t : List Char} : hasSuffix s t = true ↔ t <:+ s := by
  rw [hasSuffix, List.isSuffixOf_iff_suffix]

end Text

/-! ## The plain operations -/

/-- What an operator says of a text and another, taken as they stand: the order is that of code
points, character by character. -/
def Operator.Relates : Operator → List Char → List Char → Prop
  | equal, s, t => s = t
  | notEqual, s, t => s ≠ t
  | greater, s, t => t < s
  | greaterOrEqual, s, t => t < s ∨ s = t
  | less, s, t => s < t
  | lessOrEqual, s, t => s < t ∨ s = t
  | contains, s, t => t <:+: s
  | startsWith, s, t => t <+: s
  | endsWith, s, t => t <:+ s

theorem FieldType.unwrap_of_isString {ρ : Type} {type : FieldType ρ} (h : type.isString = true) :
    type.unwrap = .string := by
  unfold isString at h
  split at h
  · next hu => exact hu
  · cases h

namespace ValueTest

open Text

/-- Testing a text against a folded one is relating its folded form to that. -/
theorem textHolds_iff_relates (operator : Operator) (s t : List Char) (lower : Char → List Char) :
    textHolds operator s t lower = true ↔ operator.Relates (foldChars s lower) t := by
  cases operator with
  | equal => exact eqFolded_iff s t lower
  | notEqual =>
    show (!eqFolded s t lower) = true ↔ ¬ foldChars s lower = t
    rw [← eqFolded_iff, Bool.not_eq_true', Bool.not_eq_true]
  | contains => exact hasInfix_iff
  | startsWith => exact startsWithFolded_iff s t lower
  | endsWith => exact hasSuffix_iff
  | greater | greaterOrEqual | less | lessOrEqual =>
    simp only [textHolds, Operator.accepts, Operator.Relates, compareFolded_eq, Bool.or_eq_true,
      beq_iff_eq, Option.some.injEq, compareChars_eq_gt_iff, compareChars_eq_lt_iff,
      compareChars_eq_eq_iff]

/-- Any operator can test a string, nullable or not, against a text. -/
theorem build_ofText {ρ : Type} (catalog : Catalog ρ) {type : FieldType ρ}
    (h : type.isString = true) (text : String) (operator : Operator) :
    build catalog type (.ofText text) operator = .ok (.text operator (foldCase text)) := by
  have hu := FieldType.unwrap_of_isString h
  refine build_eq_ok_iff.2 ⟨objection?_eq_none_iff.2 ⟨?_, fun _ => h, ?_, nofun⟩, rfl⟩
  · simp [FieldType.isComposite, hu]
  · simp [FieldType.isOrderable, hu]

end ValueTest

/-- On a string field, nullable or not, a literal is taken by its text. -/
theorem Literal.coerce_of_isString {ρ : Type} (catalog : Catalog ρ) {type : FieldType ρ}
    {literal : Literal} (h : type.isString = true) (hl : literal.isNull = false) :
    literal.coerce catalog type = .ok (.ofText literal.text) := by
  simp [coerce, hl, FieldType.unwrap_of_isString h, coerceTo?]

theorem Text.foldCase_append (a b : String) (lower : Char → List Char) :
    foldCase (a ++ b) lower = foldCase a lower ++ foldCase b lower := by
  rw [← String.toList_inj]
  simp

open Text ValueTest in
/-- **Texts are tested as if they were folded first.** Under every operator the test of a text `s`
against a folded literal `t` comes to the plain relation of the two folded texts, however single
characters are lowered. So comparing on the way agrees with folding first, texts that fold alike are
tested alike, and a text contains whatever folds like one of its parts, and starts and ends with
what folds like its first and its last part. On a string field this is the test that compiling
makes. -/
theorem textHolds_folded (operator : Operator) (s t : String) (lower : Char → List Char) :
    (textHolds operator s.toList (foldCase t lower).toList lower = true ↔
      operator.Relates (foldCase s lower).toList (foldCase t lower).toList) ∧
    (∀ folded : List Char,
      compareFolded s.toList folded lower = compareChars (foldCase s lower).toList folded ∧
      (eqFolded s.toList folded lower = true ↔ (foldCase s lower).toList = folded) ∧
      startsWithFolded s.toList folded lower = folded.isPrefixOf (foldCase s lower).toList) ∧
    (∀ s' t', foldCase s' lower = foldCase s lower → foldCase t' lower = foldCase t lower →
      textHolds operator s'.toList (foldCase t' lower).toList lower =
        textHolds operator s.toList (foldCase t lower).toList lower) ∧
    (∀ a b, foldCase (a ++ b) lower = foldCase a lower ++ foldCase b lower) ∧
    (∀ a b c, s = a ++ b ++ c → foldCase b lower = foldCase t lower →
      textHolds .contains s.toList (foldCase t lower).toList lower = true ∧
      (a = "" → textHolds .startsWith s.toList (foldCase t lower).toList lower = true) ∧
      (c = "" → textHolds .endsWith s.toList (foldCase t lower).toList lower = true)) ∧
    ∀ {ρ : Type} (catalog : Catalog ρ) (type : FieldType ρ), type.isString = true →
      (Literal.str t).coerce catalog type = .ok (.ofText t) ∧
      ∃ test, build catalog type (.ofText t) operator = .ok test ∧
        (test.passes (.str s) = true ↔
          operator.Relates (foldCase s).toList (foldCase t).toList) := by
  have hiff : ∀ (op : Operator) (s t : String) (lower : Char → List Char),
      textHolds op s.toList (foldCase t lower).toList lower = true ↔
        op.Relates (foldCase s lower).toList (foldCase t lower).toList := by
    intro op s t lower
    rw [textHolds_iff_relates, toList_foldCase s]
  refine ⟨hiff operator s t lower, fun folded => ?_, ?_, fun a b => foldCase_append a b lower, ?_,
    ?_⟩
  · rw [toList_foldCase]
    exact ⟨compareFolded_eq _ _ _, eqFolded_iff _ _ _, startsWithFolded_eq _ _ _⟩
  · intro s' t' hs ht
    rw [Bool.eq_iff_iff, hiff, hiff, hs, ht]
  · rintro a b c rfl hb
    have hempty : (foldCase "" lower).toList = [] := by simp
    rw [hiff, hiff, hiff, foldCase_append, foldCase_append, hb, String.toList_append,
      String.toList_append]
    refine ⟨⟨_, _, rfl⟩, ?_, ?_⟩
    · rintro rfl
      rw [hempty, List.nil_append]
      exact List.prefix_append _ _
    · rintro rfl
      rw [hempty, List.append_nil]
      exact List.suffix_append _ _
  · intro ρ catalog type htype
    exact ⟨Literal.coerce_of_isString catalog htype rfl, _, build_ofText catalog htype t operator,
      hiff operator s t lowerCase⟩

open Text ValueTest in
/-- The capital I with a dot folds to two characters, and a text that holds it contains both. -/
theorem textHolds_folded_dotted :
    textHolds .contains "G\u0130Z".toList (foldCase "I\u0307").toList = true ∧
      textHolds .contains "gi\u0307z".toList (foldCase "\u0130").toList = true ∧
      ∃ test, build Sample.catalog (.optional .string) (.ofText "I\u0307") .contains = .ok test ∧
        test.passes (.str "G\u0130Z") = true := by
  obtain ⟨hiff, -, halike, -, hparts, hbuild⟩ :=
    textHolds_folded .contains "G\u0130Z" "I\u0307" lowerCase
  have hholds := (hparts "G" "\u0130" "Z" (by decide) (by decide +kernel)).1
  obtain ⟨-, test, htest, hpasses⟩ := hbuild Sample.catalog (.optional .string) rfl
  refine ⟨hholds, ?_, test, htest, hpasses.2 (hiff.1 hholds)⟩
  rw [halike "gi\u0307z" "\u0130" (by decide +kernel) (by decide +kernel)]
  exact hholds

end RecordFilter
