import RecordFilter.Json.Tree

/-!
# Written numbers, read

A number is read up to the first character that it cannot go on with, so what follows it in a
document does not matter as long as it starts with no such character (`EndsNumber`). A whole number
that 64 bits hold, signed or unsigned, is read as it was written. The text of any other number is
read as some float, and `Number.ReadsAs` says which.
-/

namespace RecordFilter.Json

-- Powers are the repeated products of core, whatever else is imported beside this module.
attribute [local instance (high)] instPowNat

/-- The whole numbers that 64 bits hold, signed or unsigned. -/
def FitsWord (i : Int) : Prop := -2 ^ (63 : Nat) ≤ i ∧ i < 2 ^ (64 : Nat)

instance (i : Int) : Decidable (FitsWord i) := by unfold FitsWord; infer_instance

/-- A character that a number can start with. -/
def StartsNumber (c : Char) : Prop := c = '-' ∨ c.isDigit = true

instance (c : Char) : Decidable (StartsNumber c) := by unfold StartsNumber; infer_instance

/-- A character that a number does not go on with. -/
def StopsNumber (c : Char) : Prop := c.isDigit = false ∧ c ≠ '.' ∧ c ≠ 'e' ∧ c ≠ 'E'

instance (c : Char) : Decidable (StopsNumber c) := by unfold StopsNumber; infer_instance

/-- A text that a number before it does not go on with. -/
def EndsNumber (rest : List Char) : Prop := ∀ c ∈ rest.head?, StopsNumber c

theorem endsNumber_nil : EndsNumber [] := fun _ hc => nomatch hc

theorem endsNumber_cons {c : Char} {rest : List Char} (h : StopsNumber c) :
    EndsNumber (c :: rest) := by
  intro d hd
  rw [List.head?_cons, Option.mem_some_iff] at hd
  exact hd ▸ h

/-- All of the text of a number is read as the number `m`. -/
def Number.ReadsAs (n m : Number) : Prop :=
  ∃ pieces, NumberText.read n.chars = some (pieces, []) ∧ pieces.value? = some m

instance (n m : Number) : Decidable (n.ReadsAs m) :=
  decidable_of_iff
    (((NumberText.read n.chars).any fun (pieces, rest) =>
      rest.isEmpty && pieces.value? == some m) = true) (by
    unfold Number.ReadsAs
    cases NumberText.read n.chars with
    | none => simp
    | some result =>
      obtain ⟨pieces, rest⟩ := result
      simp [and_assoc])

/-! ## The end of a number -/

namespace NumberText

variable {cs rest left : List Char}

/-- Digits are split off where the first other character stands. -/
theorem digits?_eq_some_iff {digits : List Char} :
    digits? cs = some (digits, left) ↔
      cs = digits ++ left ∧ digits ≠ [] ∧ (∀ c ∈ digits, c.isDigit = true) ∧
        ∀ c ∈ left.head?, c.isDigit = false := by
  constructor
  · intro h
    unfold digits? at h
    split at h
    · cases h
    · next hne =>
      cases h
      refine ⟨List.takeWhile_append_dropWhile.symm, ?_, ?_, ?_⟩
      · rwa [List.isEmpty_iff] at hne
      · exact List.all_eq_true.1 List.all_takeWhile
      · intro c hc
        have hstop := List.head?_dropWhile_not Char.isDigit cs
        rw [Option.mem_def.1 hc] at hstop
        exact hstop
  · rintro ⟨rfl, hne, hdigits, hleft⟩
    obtain ⟨htake, hdrop⟩ := span_digits hdigits hleft
    rw [digits?, htake, hdrop, if_neg (by rwa [List.isEmpty_iff])]

theorem digits?_append {digits : List Char} (h : digits? cs = some (digits, left))
    (hrest : EndsNumber rest) : digits? (cs ++ rest) = some (digits, left ++ rest) := by
  obtain ⟨rfl, hne, hdigits, hleft⟩ := digits?_eq_some_iff.1 h
  refine digits?_eq_some_iff.2 ⟨List.append_assoc .., hne, hdigits, ?_⟩
  cases left with
  | nil => exact fun c hc => (hrest c hc).1
  | cons c left => exact hleft

theorem readFraction_append {fraction : Option (List Char)}
    (h : readFraction cs = some (fraction, left)) (hrest : EndsNumber rest) :
    readFraction (cs ++ rest) = some (fraction, left ++ rest) := by
  unfold readFraction at h
  split at h
  · next cs =>
    obtain ⟨⟨digits, tail⟩, hdigits, heq⟩ := Option.map_eq_some_iff.1 h
    cases heq
    rw [List.cons_append, readFraction, digits?_append hdigits hrest, Option.map_some]
  · next hpoint =>
    cases h
    cases cs with
    | nil =>
      cases rest with
      | nil => rfl
      | cons c rest =>
        have hc := (hrest c rfl).2.1
        rw [List.nil_append, readFraction]
        · exact fun tail heq => hc (List.cons.inj heq).1
    | cons c cs =>
      have hc : c ≠ '.' := fun heq => hpoint cs (heq ▸ rfl)
      rw [List.cons_append, readFraction]
      exact fun tail heq => hc (List.cons.inj heq).1

/-- Without a sign in front there is nothing to take off. -/
theorem readSign_cons {c : Char} (hminus : c ≠ '-') (hplus : c ≠ '+') (cs : List Char) :
    readSign (c :: cs) = (false, c :: cs) := by
  rw [readSign]
  · exact fun _ heq => hminus (List.cons.inj heq).1
  · exact fun _ heq => hplus (List.cons.inj heq).1

theorem readSign_append (h : cs ≠ []) (rest : List Char) :
    readSign (cs ++ rest) = ((readSign cs).1, (readSign cs).2 ++ rest) := by
  obtain ⟨c, cs, rfl⟩ := List.exists_cons_of_ne_nil h
  rw [List.cons_append]
  by_cases hminus : c = '-'
  · subst hminus
    rfl
  by_cases hplus : c = '+'
  · subst hplus
    rfl
  rw [readSign_cons hminus hplus, readSign_cons hminus hplus, List.cons_append]

theorem readExponent_append {exponent : Option Int}
    (h : readExponent cs = some (exponent, left)) (hrest : EndsNumber rest) :
    readExponent (cs ++ rest) = some (exponent, left ++ rest) := by
  cases cs with
  | nil =>
    cases h
    cases rest with
    | nil => rfl
    | cons c rest =>
      obtain ⟨-, -, hsmall, hlarge⟩ := hrest c rfl
      rw [List.nil_append, readExponent, if_neg (by simp [hsmall, hlarge])]
  | cons c cs =>
    rw [List.cons_append]
    rw [readExponent] at h ⊢
    split at h
    · next hmark =>
      obtain ⟨⟨digits, tail⟩, hdigits, heq⟩ := Option.map_eq_some_iff.1 h
      cases heq
      have hcs : cs ≠ [] := by
        rintro rfl
        cases hdigits
      rw [if_pos hmark, readSign_append hcs, digits?_append hdigits hrest, Option.map_some]
    · next hmark =>
      cases h
      rw [if_neg hmark, List.cons_append]

theorem readUnsigned_append {negative : Bool} {pieces : NumberText}
    (h : readUnsigned negative cs = some (pieces, left)) (hrest : EndsNumber rest) :
    readUnsigned negative (cs ++ rest) = some (pieces, left ++ rest) := by
  unfold readUnsigned at h
  split at h
  · cases h
  · next whole cs₁ hwhole =>
    split at h
    · cases h
    · next hzero =>
      split at h
      · cases h
      · next fraction cs₂ hfraction =>
        obtain ⟨⟨exponent, tail⟩, hexponent, heq⟩ := Option.map_eq_some_iff.1 h
        cases heq
        unfold readUnsigned
        simp only [digits?_append hwhole hrest, readFraction_append hfraction hrest,
          readExponent_append hexponent hrest, if_neg hzero, Option.map_some]

/-- **A number is read the same whatever stands after it.** -/
theorem read_append {pieces : NumberText} (h : read cs = some (pieces, left))
    (hrest : EndsNumber rest) : read (cs ++ rest) = some (pieces, left ++ rest) := by
  unfold read at h
  split at h
  · next cs =>
    rw [List.cons_append, read]
    exact readUnsigned_append h hrest
  · next hminus =>
    have hcs : cs ≠ [] := by
      rintro rfl
      cases h
    obtain ⟨c, cs, rfl⟩ := List.exists_cons_of_ne_nil hcs
    rw [List.cons_append, read]
    · exact readUnsigned_append h hrest
    · exact fun tail heq => hminus cs (by rw [(List.cons.inj heq).1])

theorem exists_cons_of_read {pieces : NumberText} (h : read cs = some (pieces, left)) :
    ∃ c tail, cs = c :: tail ∧ StartsNumber c := by
  unfold read at h
  split at h
  · next cs => exact ⟨'-', cs, rfl, .inl rfl⟩
  · unfold readUnsigned at h
    split at h
    · cases h
    · next whole _ hwhole =>
      obtain ⟨rfl, hne, hdigits, -⟩ := digits?_eq_some_iff.1 hwhole
      obtain ⟨c, whole, rfl⟩ := List.exists_cons_of_ne_nil hne
      exact ⟨c, _, rfl, .inr (hdigits c List.mem_cons_self)⟩

end NumberText

/-! ## Whole numbers -/

/-- Only zero is written with a zero in front. -/
theorem head?_toDigits {n : Nat} (h : 0 < n) : (Nat.toDigits 10 n).head? ≠ some '0' := by
  induction n using Nat.strongRecOn with
  | ind n ih =>
    by_cases hsmall : n < 10
    · rw [Nat.toDigits_of_lt_base hsmall, List.head?_cons, ne_eq, Option.some_inj,
        Nat.digitChar_eq_zero]
      omega
    · have hrest := ih (n / 10) (by omega) (by omega)
      obtain ⟨c, cs, hcs⟩ : ∃ c cs, Nat.toDigits 10 (n / 10) = c :: cs :=
        List.exists_cons_of_ne_nil Nat.toDigits_ne_nil
      rw [Nat.toDigits_of_base_le (by decide) (by omega), hcs]
      rwa [hcs] at hrest

theorem NumberText.readUnsigned_toDigits (negative : Bool) (n : Nat) :
    readUnsigned negative (Nat.toDigits 10 n) =
      some (⟨negative, Nat.toDigits 10 n, none, none⟩, []) := by
  have hdigits : digits? (Nat.toDigits 10 n) = some (Nat.toDigits 10 n, []) :=
    digits?_eq_some_iff.2 ⟨(List.append_nil _).symm, Nat.toDigits_ne_nil,
      fun _ hc => Nat.isDigit_of_mem_toDigits (by decide) (by decide) hc, by simp⟩
  have hzero : ((Nat.toDigits 10 n).head? == some '0' && decide (1 < (Nat.toDigits 10 n).length))
      = false := by
    rcases Nat.eq_zero_or_pos n with rfl | hn
    · rfl
    · rw [beq_false_of_ne (head?_toDigits hn), Bool.false_and]
  unfold readUnsigned
  simp only [hdigits, hzero, Bool.false_eq_true, if_false]
  rfl

theorem NumberText.read_toDigits (n : Nat) :
    read (Nat.toDigits 10 n) = some (⟨false, Nat.toDigits 10 n, none, none⟩, []) := by
  rw [← readUnsigned_toDigits, read]
  intro cs heq
  have hdigit : '-'.isDigit = true :=
    Nat.isDigit_of_mem_toDigits (b := 10) (n := n) (by decide) (by decide) (by simp [heq])
  exact absurd hdigit (by decide)

/-- **Whole numbers of 64 bits are read as they were written.** -/
theorem Number.readsAs_int {i : Int} (h : FitsWord i) : (int i).ReadsAs (int i) := by
  obtain ⟨hlower, hupper⟩ := h
  show ∃ pieces, NumberText.read (intChars i) = some (pieces, []) ∧ pieces.value? = some (int i)
  unfold intChars
  split
  · next hneg =>
    have hvalue : -(i.natAbs : Int) = i := by omega
    have hfits : (true && decide (0 < i.natAbs) && decide (i.natAbs ≤ 2 ^ (63 : Nat))) = true := by
      rw [Bool.true_and, Bool.and_eq_true, decide_eq_true_iff, decide_eq_true_iff]
      omega
    refine ⟨_, NumberText.readUnsigned_toDigits true i.natAbs, ?_⟩
    simp only [NumberText.value?, Nat.ofDigitChars_ten_toDigits, Option.isNone_none, Bool.and_self,
      if_true, hfits, hvalue]
  · next hneg =>
    have hvalue : (i.natAbs : Int) = i := by omega
    have hfits : (!false && decide (i.natAbs < 2 ^ (64 : Nat))) = true := by
      rw [Bool.not_false, Bool.true_and, decide_eq_true_iff]
      omega
    refine ⟨_, NumberText.read_toDigits i.natAbs, ?_⟩
    simp only [NumberText.value?, Nat.ofDigitChars_ten_toDigits, Option.isNone_none, Bool.and_self,
      if_true, Bool.false_and, Bool.false_eq_true, if_false, hfits, hvalue]

end RecordFilter.Json
