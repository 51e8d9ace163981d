import RecordFilter.Proofs.DocumentTexts
import RecordFilter.Proofs.Rereading
import RecordFilter.Proofs.WireForms

/-!
# Operators and combinators read by code and by name

An operator or a combinator stands in JSON text by its code or by its name. Of the whole numbers of
any size only the codes are taken, so that nothing is left of a number beyond one byte, and of the
strings only the names, without regard to ASCII case. `Reader.TakesCoded` says so of a reader, and
`codedValues_without_aliases` of the readers of operators and combinators.
-/

namespace RecordFilter

-- Powers are the repeated products of core, whatever else is imported beside this module.
attribute [local instance (high)] instPowNat

open Json (Document Number Reader)

namespace Json

/-! ## What a reader takes -/

/-- A reader takes the things of a kind by their codes and by their names, and nothing else. -/
structure Reader.TakesCoded {α : Type} (read : Reader α) (kind : String) (code : α → Nat)
    (name : α → String) : Prop where
  /-- A numeral without point and exponent is a code. -/
  integer : ∀ text (t : DecimalNumeral), t.Fills text → t.fraction = none → t.exponent = none →
    ∀ a, Reader.ofText read text = .ok a ↔ t.value = code a
  /-- A string is a name, but for ASCII case. -/
  string : ∀ text s, Document.read text = (.string s, true) →
    ∀ a, Reader.ofText read text = .ok a ↔ Text.sameName (name a) s = true
  /-- Any other string is quoted in the error. -/
  unknown : ∀ text s, Document.read text = (.string s, true) →
    (∀ a, Text.sameName (name a) s = false) →
      ∃ error, Reader.ofText read text = .error error ∧
        error.message? = some ("unknown " ++ kind ++ " '" ++ s ++ "'")
  float : ∀ text (t : DecimalNumeral), t.Fills text → t.fraction ≠ none ∨ t.exponent ≠ none →
    ∃ error, Reader.ofText read text = .error error
  other : ∀ text, (Document.read text).1 = .null ∨ (∃ value, (Document.read text).1 = .bool value) ∨
    (Document.read text).1.IsContainer → ∃ error, Reader.ofText read text = .error error

/-! ## Coded values -/

variable {α : Type} {kind wanted : String} {ofCode? : Nat → Option α}
  {ofName? : String → Option α} {code : α → Nat} {name : α → String} {text : String}

theorem Number.toByte?_eq_some_iff {i : Int} {n : Nat} :
    (Number.int i).toByte? = some n ↔ i = n ∧ n < 256 := by
  simp only [Number.toByte?, Bool.and_eq_true, decide_eq_true_iff]
  split
  · rw [Option.some_inj]
    omega
  · simp only [reduceCtorEq, false_iff]
    omega

/-- **A whole number is read as the thing with that code**, as long as codes have one byte. -/
theorem readCoded_int_eq_ok_iff (hcode : ∀ n a, ofCode? n = some a ↔ code a = n)
    (hbyte : ∀ a, code a < 256) {i : Int} {a : α} :
    readCoded kind wanted ofCode? ofName? (.number (.int i)) = .ok a ↔ i = code a := by
  have hbind : (Number.int i).toByte?.bind ofCode? = some a ↔ i = code a := by
    rw [Option.bind_eq_some_iff]
    constructor
    · rintro ⟨n, hn, ha⟩
      rw [(Number.toByte?_eq_some_iff.1 hn).1, (hcode n a).1 ha]
    · intro hi
      exact ⟨code a, Number.toByte?_eq_some_iff.2 ⟨hi, hbyte a⟩, (hcode _ a).2 rfl⟩
  rw [← hbind, readCoded]
  cases (Number.int i).toByte?.bind ofCode? <;> simp

theorem readCoded_string_eq_ok_iff {s : String} {a : α} :
    readCoded kind wanted ofCode? ofName? (.string s) = .ok a ↔ ofName? s = some a := by
  rw [readCoded]
  cases ofName? s <;> simp

theorem exists_of_readCoded_eq_ok {document : Document} {a : α}
    (h : readCoded kind wanted ofCode? ofName? document = .ok a) :
    (∃ i, document = .number (.int i)) ∨ ∃ s, document = .string s := by
  cases document with
  | number n =>
    cases n with
    | int i => exact .inl ⟨i, rfl⟩
    | float => cases h
  | string s => exact .inr ⟨s, rfl⟩
  | missing | valueless | null | bool | array | object => cases h

/-! ## Their texts -/

/-- A numeral is taken just if it is read as a whole number that is a code. -/
theorem ofText_readCoded_of_fills (hcode : ∀ n a, ofCode? n = some a ↔ code a = n)
    (hbyte : ∀ a, code a < 256) {t : DecimalNumeral} (h : t.Fills text) {a : α} :
    Reader.ofText (readCoded kind wanted ofCode? ofName?) text = .ok a ↔
      t.pieces.value? = some (.int (code a)) := by
  rw [Reader.ofText_eq_ok_iff_of_read (Document.read_of_fills h)]
  cases hvalue : t.pieces.value? with
  | none => constructor <;> nofun
  | some n =>
    cases n with
    | float => constructor <;> nofun
    | int i =>
      rw [Document.ofValue?, readCoded_int_eq_ok_iff hcode hbyte, Option.some_inj,
        Number.int.injEq]

/-- Codes are read as whole numbers, since none of them is minus zero. -/
theorem value?_eq_code_iff {t : DecimalNumeral} (h : t.IsJson) (hfraction : t.fraction = none)
    (hexponent : t.exponent = none) {n : Nat} (hpos : 0 < n) (hbyte : n < 256) :
    t.pieces.value? = some (.int n) ↔ t.value = n := by
  rw [t.value?_pieces_eq_int_iff h, Int.cast_natCast]
  refine and_iff_right_of_imp fun hvalue => ⟨hfraction, hexponent, ?_, n, ?_, ?_⟩
  · intro hchars
    obtain ⟨-, hzero⟩ := (t.chars_eq_minusZero_iff h hfraction hexponent).1 hchars
    rw [t.value_of_plain hfraction hexponent, hzero] at hvalue
    have hn : (0 : ℚ) = n := by simpa using hvalue
    exact hpos.ne (by exact_mod_cast hn)
  · unfold FitsWord
    omega
  · exact_mod_cast hvalue

/-- **Coded values are taken as such**, whose codes are positive and have one byte. -/
theorem takesCoded_readCoded (hcode : ∀ n a, ofCode? n = some a ↔ code a = n)
    (hpos : ∀ a, 0 < code a) (hbyte : ∀ a, code a < 256)
    (hname : ∀ s a, ofName? s = some a ↔ Text.sameName (name a) s = true) :
    (readCoded kind wanted ofCode? ofName?).TakesCoded kind code name where
  integer text t h hfraction hexponent a := by
    rw [ofText_readCoded_of_fills hcode hbyte h,
      value?_eq_code_iff h.1 hfraction hexponent (hpos a) (hbyte a)]
  string text s h a := by
    rw [Reader.ofText_eq_ok_iff_of_read h, readCoded_string_eq_ok_iff, hname]
  unknown text s h hnone := by
    have hname? : ofName? s = none := by
      rw [Option.eq_none_iff_forall_ne_some]
      intro a ha
      exact Bool.false_ne_true ((hnone a).symm.trans ((hname s a).1 ha))
    refine ⟨.unknownName kind s, ?_, rfl⟩
    simp only [Reader.ofText, h, readCoded, hname?]
  float text t h hfloat := by
    rw [← not_ok_iff_error]
    rintro ⟨a, ha⟩
    rw [ofText_readCoded_of_fills hcode hbyte h, t.value?_pieces_eq_int_iff h.1] at ha
    exact hfloat.elim (· ha.1.fraction) (· ha.1.exponent)
  other text h := by
    rw [← not_ok_iff_error]
    rintro ⟨a, ha⟩
    obtain ⟨i, hi⟩ | ⟨s, hs⟩ := exists_of_readCoded_eq_ok (Reader.ofText_eq_ok_iff.1 ha).1
    · simp [hi, Document.IsContainer] at h
    · simp [hs, Document.IsContainer] at h

end Json

/-- **Codes and names have no aliases.** Operators and combinators are read from whole numbers of
any size just by their codes, and from strings just by their names without regard to ASCII case; any
other string is quoted in an error, and no float, truth value, array, object or null is read. What
is read from any text is read again from the text that is written for it. -/
theorem codedValues_without_aliases :
    (Operator.ofDocument.TakesCoded "operator" Operator.code Operator.name ∧
      Combinator.ofDocument.TakesCoded "combinator" Combinator.code Combinator.name) ∧
    (∀ text operator, Reader.ofText Operator.ofDocument text = .ok operator →
      Reader.ofText Operator.ofDocument operator.toJson.text = .ok operator) ∧
    ∀ text combinator, Reader.ofText Combinator.ofDocument text = .ok combinator →
      Reader.ofText Combinator.ofDocument combinator.toJson.text = .ok combinator := by
  have hoperator : ∀ op : Operator, 0 < op.code ∧ op.code < 256 := by
    intro op
    cases op <;> decide
  have hcombinator : ∀ c : Combinator, 0 < c.code ∧ c.code < 256 := by
    intro c
    cases c <;> decide
  refine ⟨⟨?_, ?_⟩, fun _ op _ => op.reads.ofText, fun _ c _ => c.reads.ofText⟩
  · exact Json.takesCoded_readCoded (fun _ _ => Operator.ofCode?_eq_some_iff)
      (fun op => (hoperator op).1) (fun op => (hoperator op).2)
      fun _ _ => Operator.ofName?_eq_some_iff
  · exact Json.takesCoded_readCoded (fun _ _ => Combinator.ofCode?_eq_some_iff)
      (fun c => (hcombinator c).1) (fun c => (hcombinator c).2)
      fun _ _ => Combinator.ofName?_eq_some_iff

/-- A code with 256 added is refused, while a code is read behind a blank, and a name in any
capitals. A string that only ends like a name is quoted. -/
theorem codedValues_without_aliases_nearby :
    (∃ error, Reader.ofText Operator.ofDocument "257" = .error error) ∧
      Reader.ofText Operator.ofDocument " 3" = .ok .greater ∧
      Reader.ofText Operator.ofDocument "\"eQuAl\"" = .ok .equal ∧
      ∃ error, Reader.ofText Combinator.ofDocument "\"nor\"" = .error error ∧
        error.message? = some "unknown combinator 'nor'" := by
  obtain ⟨⟨hoperator, hcombinator⟩, -⟩ := codedValues_without_aliases
  refine ⟨not_ok_iff_error.1 ?_, ?_, ?_, ?_⟩
  · rintro ⟨op, hop⟩
    have hvalue := (hoperator.integer "257"
      ⟨.none, ['2', '5', '7'], none, none, by simp, by simp, by simp⟩
      ⟨⟨nofun, by simp, by simp, nofun⟩, [], [], by decide, rfl, rfl⟩ rfl rfl op).1 hop
    rw [DecimalNumeral.value_of_plain rfl rfl] at hvalue
    cases op <;> revert hvalue <;> decide
  · refine (hoperator.integer " 3" ⟨.none, ['3'], none, none, by simp, by simp, by simp⟩
      ⟨⟨nofun, by simp, by simp, nofun⟩, [' '], [], by decide, rfl, rfl⟩ rfl rfl _).2 ?_
    exact DecimalNumeral.value_of_plain rfl rfl
  · exact (hoperator.string _ "eQuAl" (Json.read_text (Json.readsAs_string "eQuAl")) _).2
      (by decide)
  · obtain ⟨error, herror, hmessage⟩ := hcombinator.unknown _ "nor"
      (Json.read_text (Json.readsAs_string "nor")) fun c => by cases c <;> decide
    exact ⟨error, herror, hmessage.trans (by simp)⟩

end RecordFilter
