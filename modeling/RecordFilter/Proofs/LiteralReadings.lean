import RecordFilter.Proofs.DocumentTexts
import RecordFilter.Proofs.PathForms
import RecordFilter.Proofs.WireForms

/-!
# The two ways to read a literal

A literal is read from a JSON text at once (`Literal.ofText`), or the text is read as a JSON value
and the literal is made of that (`Literal.ofParsed?`). The two sort the numbers each for itself: the
one by the number that was read, the other by trying the sizes that it could have.

Outside containers they agree on every text. A container is refused by the one, and becomes its
compact text by the other, unless it has no value as JSON. All of it is `readings_agree`.
-/

namespace RecordFilter

open Json (Document FitsWord)

namespace Literal

/-- The literal that a JSON text holds. -/
def ofText (text : String) : Except Json.ReadError Literal := Json.Reader.ofText ofDocument text

/-- The literal made of the value of a JSON text. -/
def ofParsed? (text : String) : Option Literal := (Json.parse? text).map ofJson

/-- Both ways to read a text give a literal. -/
def BothGive (text : String) (literal : Literal) : Prop :=
  ofText text = .ok literal ∧ ofParsed? text = some literal

/-- Both ways to read a text fail. -/
def BothRefuse (text : String) : Prop :=
  (∃ error, ofText text = .error error) ∧ ofParsed? text = none

variable {text : String} {document : Document}

/-! ## Numbers -/

theorem bounds_of_fitsWord {i : Int} (h : FitsWord i) :
    -2 ^ (127 : Nat) ≤ i ∧ i < 2 ^ (127 : Nat) := by
  unfold FitsWord at h
  omega

theorem ofNumber_int {i : Int} (h : FitsWord i) :
    ofNumber (.int i) = .int ⟨i, (bounds_of_fitsWord h).1, (bounds_of_fitsWord h).2⟩ := by
  rw [ofNumber, Int128.ofInt?, dif_pos (bounds_of_fitsWord h)]

/-- **Trying the sizes finds every number of 64 bits**, and leaves the floats. -/
theorem ofJson_number {n : Json.Number} (h : ∀ i, n = .int i → FitsWord i) :
    ofJson (.number n) = ofNumber n := by
  cases n with
  | float x => rfl
  | int i =>
    have hfits := h i rfl
    have hclamp : Int128.clamp i =
        ⟨i, (bounds_of_fitsWord hfits).1, (bounds_of_fitsWord hfits).2⟩ :=
      dif_pos (bounds_of_fitsWord hfits)
    rw [ofNumber_int hfits, ofJson, Json.Number.toSigned?, Json.Number.toUnsigned?, ← hclamp]
    by_cases hsigned : (decide (-2 ^ (63 : Nat) ≤ i) && decide (i < 2 ^ (63 : Nat))) = true
    · rw [if_pos hsigned]
    · have hunsigned : (decide (0 ≤ i) && decide (i < 2 ^ (64 : Nat))) = true := by
        simp only [FitsWord, Bool.and_eq_true, decide_eq_true_iff] at hfits hsigned ⊢
        omega
      rw [if_neg hsigned, if_pos hunsigned]

/-! ## Scalars -/

/-- **Outside containers both ways agree**, and fail on the same texts. -/
theorem toOption_ofText (h : ¬ (Document.read text).1.IsContainer) :
    (ofText text).toOption = ofParsed? text := by
  unfold ofText Json.Reader.ofText ofParsed? Json.parse?
  generalize hread : Document.read text = result at h ⊢
  obtain ⟨document, isJson⟩ := result
  cases isJson with
  | false =>
    cases hdocument : ofDocument document <;>
    · simp only [hdocument]
      rfl
  | true =>
    cases document with
    | array | object => exact absurd trivial h
    | number n =>
      have hfits (i : Int) (hi : n = .int i) : FitsWord i := by
        obtain ⟨t, -, hvalue⟩ := Json.Document.exists_fills_of_read hread
        exact Json.NumberText.fitsWord_of_value? (hi ▸ hvalue)
      exact congrArg some (ofJson_number hfits).symm
    | missing | valueless | null | bool | string => rfl

theorem bothGive_iff (h : ¬ (Document.read text).1.IsContainer) {literal : Literal} :
    BothGive text literal ↔ ofText text = .ok literal := by
  refine and_iff_left_of_imp fun hgive => ?_
  rw [← toOption_ofText h, hgive]
  rfl

theorem bothRefuse_iff (h : ¬ (Document.read text).1.IsContainer) :
    BothRefuse text ↔ ∃ error, ofText text = .error error := by
  refine and_iff_left_of_imp ?_
  rintro ⟨error, hrefuse⟩
  rw [← toOption_ofText h, hrefuse]
  rfl

theorem bothRefuse_of_toOption (hleaf : ¬ (Document.read text).1.IsContainer)
    (h : (ofText text).toOption = none) : BothRefuse text := by
  refine (bothRefuse_iff hleaf).2 ?_
  cases hread : ofText text with
  | error error => exact ⟨error, rfl⟩
  | ok literal =>
    rw [hread] at h
    cases h

theorem ofText_of_read (h : Document.read text = (document, true)) (literal : Literal) :
    ofText text = .ok literal ↔ ofDocument document = .ok literal :=
  Json.Reader.ofText_eq_ok_iff_of_read h

/-- What stands in a document by itself is given by both ways. -/
theorem bothGive_of_read {literal : Literal} (h : Document.read text = (document, true))
    (hleaf : ¬ document.IsContainer) (hliteral : ofDocument document = .ok literal) :
    BothGive text literal :=
  (bothGive_iff (h ▸ hleaf)).2 ((ofText_of_read h literal).2 hliteral)

/-! ## Texts of numbers -/

theorem not_isContainer_of_fills {t : DecimalNumeral} (h : t.Fills text) :
    ¬ (Document.read text).1.IsContainer := by
  rw [Json.Document.read_of_fills h]
  cases t.pieces.value? <;> exact id

theorem exists_number_of_ofDocument {i : Int128} (h : ofDocument document = .ok (.int i)) :
    ∃ n, document = .number n ∧ ofNumber n = .int i := by
  cases document with
  | number n => exact ⟨n, rfl, Except.ok.inj h⟩
  | _ => cases h

/-- **An integer is read** just from a numeral of 64 bits without point and exponent, other than
minus zero. -/
theorem bothGive_int_iff {i : Int128} :
    BothGive text (.int i) ↔ ∃ t : DecimalNumeral, t.Fills text ∧ t.IsWord ∧ t.value = i.val := by
  constructor
  · rintro ⟨h, -⟩
    obtain ⟨hdocument, hjson⟩ := Json.Reader.ofText_eq_ok_iff.1 h
    obtain ⟨n, hnumber, hn⟩ := exists_number_of_ofDocument hdocument
    obtain ⟨t, hfills, hvalue⟩ := Json.Document.exists_fills_of_read (Prod.ext hnumber hjson)
    cases n with
    | float x => cases hn
    | int j =>
      rw [ofNumber_int (Json.NumberText.fitsWord_of_value? hvalue)] at hn
      cases hn
      exact ⟨t, hfills, (t.value?_pieces_eq_int_iff hfills.1).1 hvalue⟩
  · rintro ⟨t, hfills, hword, hvalue⟩
    have hread := Json.Document.read_of_fills hfills
    have hint := (t.value?_pieces_eq_int_iff hfills.1).2 ⟨hword, hvalue⟩
    rw [hint] at hread
    refine bothGive_of_read hread id (congrArg Except.ok ?_)
    exact ofNumber_int (Json.NumberText.fitsWord_of_value? hint)

/-- Any other numeral is read as a float, unless it is too large. -/
theorem bothGive_float_or {t : DecimalNumeral} (h : t.Fills text) (hword : ¬ t.IsWord) :
    (∃ x, BothGive text (.float x)) ∨ BothRefuse text ∧
      (BinaryFormat.double.largest : ℚ) < |t.value| * (1 + 1 / 2 ^ 50) * Binary64.one := by
  have hread := Json.Document.read_of_fills h
  cases hvalue : t.pieces.value? with
  | none =>
    rw [hvalue] at hread
    refine .inr ⟨(bothRefuse_iff (not_isContainer_of_fills h)).2 (not_ok_iff_error.1 ?_),
      t.largest_lt_of_value?_eq_none hvalue⟩
    rintro ⟨literal, hliteral⟩
    cases (ofText_of_read hread literal).1 hliteral
  | some n =>
    rw [hvalue] at hread
    cases n with
    | int i => exact absurd ((t.value?_pieces_eq_int_iff h.1).1 hvalue).1 hword
    | float x => exact .inl ⟨x, bothGive_of_read hread id rfl⟩

/-! ## Containers -/

theorem exists_error_of_isContainer (h : (Document.read text).1.IsContainer) :
    ∃ error, ofText text = .error error := by
  refine not_ok_iff_error.1 ?_
  rintro ⟨literal, hliteral⟩
  have hdocument := (Json.Reader.ofText_eq_ok_iff.1 hliteral).1
  generalize (Document.read text).1 = document at h hdocument
  cases document with
  | array | object => cases hdocument
  | _ => exact h

/-- A container becomes its compact text. -/
theorem ofJson_of_isContainer {depth : Nat} {j : Json} (h : document.IsContainer)
    (hj : Json.ofDocument? depth document = some j) : ofJson j = .str j.text := by
  cases document with
  | array elements closed | object members closed =>
    rw [Json.ofDocument?] at hj
    split at hj
    · obtain ⟨_, -, rfl⟩ := Option.map_eq_some_iff.1 hj
      rfl
    · cases hj
  | _ => exact h.elim

theorem ofParsed?_of_isContainer (h : (Document.read text).1.IsContainer) {j : Json}
    (hj : Json.parse? text = some j) : ofParsed? text = some (.str j.text) := by
  rw [ofParsed?, hj]
  exact congrArg some (ofJson_of_isContainer h (Json.ofDocument?_of_parse? hj).2)

/-- A text has a value if it is JSON, not nested too deeply, and nothing in it lacks one. -/
theorem isSome_parse?_iff : (Json.parse? text).isSome = true ↔ (Document.read text).2 = true ∧
    (Document.read text).1.nesting ≤ Json.maxNesting ∧
      (Document.read text).1.Everywhere Json.Document.IsValued := by
  unfold Json.parse?
  generalize hread : Document.read text = result
  obtain ⟨document, isJson⟩ := result
  cases isJson with
  | false => simp
  | true =>
    show (Json.ofDocument? Json.maxNesting document).isSome = true ↔ _
    rw [Json.Document.isSome_ofDocument?_iff]
    have := Json.Document.isWhole_of_read hread
    tauto

/-! ## Both ways -/

/-- **The two ways to read a literal.** Outside containers they agree on every text. They give null,
the truth values and the texts that stand there, and an integer exactly for a numeral without point
and exponent, other than minus zero, whose value 64 bits hold, signed or unsigned. Any other numeral
is a float or refused, and only refused beyond the largest float, but for the errors of rounding. A
container is always refused when it is read at once; when it is read as a value it becomes its
compact text, unless the text is no JSON, is nested too deeply or has a part without a value. -/
theorem readings_agree (text : String) :
    (¬ (Document.read text).1.IsContainer → (ofText text).toOption = ofParsed? text) ∧
    (Document.read text = (.null, true) → BothGive text .null) ∧
    (∀ value, Document.read text = (.bool value, true) → BothGive text (.bool value)) ∧
    (∀ s, Document.read text = (.string s, true) → BothGive text (.str s)) ∧
    (∀ i : Int128, BothGive text (.int i) ↔
      ∃ t : DecimalNumeral, t.Fills text ∧ t.IsWord ∧ t.value = i.val) ∧
    (∀ t : DecimalNumeral, t.Fills text → ¬ t.IsWord →
      (∃ x, BothGive text (.float x)) ∨ BothRefuse text ∧
        (BinaryFormat.double.largest : ℚ) < |t.value| * (1 + 1 / 2 ^ 50) * Binary64.one) ∧
    ((Document.read text).1.IsContainer →
      (∃ error, ofText text = .error error) ∧
      (∀ j, Json.parse? text = some j → ofParsed? text = some (.str j.text)) ∧
      ((Json.parse? text).isSome = true ↔ (Document.read text).2 = true ∧
        (Document.read text).1.nesting ≤ Json.maxNesting ∧
          (Document.read text).1.Everywhere Json.Document.IsValued)) := by
  refine ⟨toOption_ofText, fun h => bothGive_of_read h id rfl,
    fun value h => bothGive_of_read h id rfl, fun s h => bothGive_of_read h id rfl,
    fun i => bothGive_int_iff, fun t => bothGive_float_or, fun h => ?_⟩
  exact ⟨exists_error_of_isContainer h, fun j => ofParsed?_of_isContainer h, isSome_parse?_iff⟩

/-- The largest whole number of 64 bits is an integer, minus zero a float, and an array a text. -/
theorem readings_agree_limits :
    BothGive "18446744073709551615" (.int ⟨18446744073709551615, by decide, by decide⟩) ∧
    (∃ x, BothGive " -0" (.float x)) ∧ ofParsed? "[1, 2]" = some (.str "[1,2]") := by
  have hlargest : ∃ t : DecimalNumeral, t.Fills "18446744073709551615" ∧ t.IsWord ∧
      t.value = (18446744073709551615 : Int) := by
    refine ⟨⟨.none, ['1', '8', '4', '4', '6', '7', '4', '4', '0', '7', '3', '7', '0', '9', '5', '5',
      '1', '6', '1', '5'], none, none, by simp, by simp, by simp⟩,
      ⟨⟨nofun, by simp, by simp, nofun⟩, [], [], by decide, rfl, rfl⟩,
      ⟨rfl, rfl, by decide, 18446744073709551615, by decide, ?_⟩, ?_⟩ <;>
      exact DecimalNumeral.value_of_plain rfl rfl
  obtain ⟨-, -, -, -, hint, -, -⟩ := readings_agree "18446744073709551615"
  obtain ⟨-, -, -, -, -, hfloat, -⟩ := readings_agree " -0"
  obtain ⟨-, -, -, -, -, -, hcontainer⟩ := readings_agree "[1, 2]"
  refine ⟨(hint _).2 hlargest, ?_, ?_⟩
  · refine (hfloat ⟨.minus, ['0'], none, none, by simp, by simp, by simp⟩
      ⟨⟨nofun, by simp, by simp, nofun⟩, [' '], [], by decide, rfl, rfl⟩
      fun h => h.notMinusZero rfl).resolve_right ?_
    rintro ⟨⟨-, hrefused⟩, -⟩
    exact absurd hrefused (by decide +kernel)
  · have hread : Document.read "[1, 2]" =
        (.array [.number (.int 1), .number (.int 2)] true, true) := by
      have hchars : "[1, 2]".toList = ['[', '1', ',', ' ', '2', ']'] := rfl
      rw [Document.read, hchars, Document.readOn_cons rfl]
      show Document.readOn [.array []] .firstElement _ = _
      rw [Document.readOn_cons rfl]
      show Document.readOn [.array [.number (.int 1)]] .separator _ = _
      rw [Document.readOn_cons rfl]
      show Document.readOn [.array [.number (.int 1)]] .value _ = _
      rw [Document.readOn_space rfl, Document.readOn_cons rfl]
      show Document.readOn [.array [.number (.int 2), .number (.int 1)]] .separator _ = _
      rw [Document.readOn_cons rfl]
      rfl
    rw [(hcontainer (by rw [hread]; trivial)).2.1 (.array [.number (.int 1), .number (.int 2)])
      (Json.parse?_of_read hread rfl)]
    rfl

/-! ## Arrays inside arrays -/

/-- An empty array inside of `n` others. -/
def nested : Nat → Json
  | 0 => .array []
  | n + 1 => .array [nested n]

/-- The text of `n` arrays, each inside the one before it. -/
def brackets (n : Nat) : String := String.ofList (List.replicate n '[' ++ List.replicate n ']')

theorem text_nested (n : Nat) : (nested n).text = brackets (n + 1) := by
  have hchars : (nested n).chars = List.replicate (n + 1) '[' ++ List.replicate (n + 1) ']' := by
    induction n with
    | zero =>
      rw [nested, Json.chars, Json.elementChars]
      rfl
    | succ n ih =>
      have hopen : List.replicate (n + 1 + 1) '[' = '[' :: List.replicate (n + 1) '[' :=
        List.replicate_succ
      have hclose : List.replicate (n + 1 + 1) ']' = List.replicate (n + 1) ']' ++ [']'] :=
        List.replicate_succ'
      rw [nested, Json.chars, Json.elementChars, ih, hopen, hclose]
      simp only [List.cons_append, List.append_assoc]
  rw [Json.text, hchars, brackets]

/-- Nested arrays are read as what they are, one deeper for each that is open. -/
theorem exists_readsAs_nested (n : Nat) : ∃ document, (nested n).ReadsAs document ∧
    document.IsContainer ∧ document.nesting = n + 1 := by
  induction n with
  | zero => exact ⟨_, Json.readsAs_array .nil, trivial, rfl⟩
  | succ n ih =>
    obtain ⟨document, hreads, -, hnesting⟩ := ih
    refine ⟨_, Json.readsAs_array (.cons hreads .nil), trivial, ?_⟩
    rw [Document.nesting, Document.nestingOfElements, Document.nestingOfElements, hnesting,
      Nat.max_zero]

/-- **Arrays nested more deeply than a value may be** have none, and no literal. -/
theorem ofParsed?_brackets {n : Nat} (h : Json.maxNesting < n) :
    (Document.read (brackets n)).1.IsContainer ∧ (Document.read (brackets n)).2 = true ∧
      ofParsed? (brackets n) = none := by
  obtain ⟨n, rfl⟩ := Nat.exists_eq_add_one_of_ne_zero (Nat.ne_zero_of_lt h)
  obtain ⟨document, hreads, hcontainer, hnesting⟩ := exists_readsAs_nested n
  have hread := Json.read_text hreads
  rw [text_nested] at hread
  rw [hread]
  refine ⟨hcontainer, rfl, ?_⟩
  rw [ofParsed?, Option.map_eq_none_iff, ← Option.not_isSome_iff_eq_none, isSome_parse?_iff, hread,
    hnesting]
  exact fun hvalued => absurd hvalued.2.1 (Nat.not_le.2 h)

/-- An array has no text if it is nested too deeply, a numeral beyond the largest float is no
literal, and neither is a string with a surrogate that has no partner. -/
theorem ofParsed?_eq_none_deep :
    ((Document.read (brackets 128)).1.IsContainer ∧ (Document.read (brackets 128)).2 = true ∧
      ofParsed? (brackets 128) = none) ∧
    (∃ t : DecimalNumeral, t.Fills "1e400") ∧ BothRefuse "1e400" ∧
    (Document.read "\"\\ud800\"").2 = true ∧ BothRefuse "\"\\ud800\"" := by
  refine ⟨ofParsed?_brackets (by decide), ?_,
    bothRefuse_of_toOption (by decide +kernel) (by decide +kernel), by decide +kernel,
    bothRefuse_of_toOption (by decide +kernel) (by decide +kernel)⟩
  exact ⟨⟨.none, ['1'], none, some ('e', ⟨.none, ['4', '0', '0'], by simp, by simp⟩), by simp,
    by simp, by simp⟩, ⟨nofun, by decide, by decide, nofun⟩, [], [], by decide, rfl, rfl⟩

end Literal

end RecordFilter
