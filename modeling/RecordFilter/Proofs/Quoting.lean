import RecordFilter.Json.Quoted

/-!
# Written strings, read

Every character has one escape or stands for itself, and reading takes either back to its code
point. No character is a surrogate, so the code points of a text are its characters again, and a
string is read as it was written (`unquote_escaped`), whatever follows its closing mark.
-/

namespace RecordFilter.Json

theorem hexValue4?_control : ∀ n < 32,
    hexValue4? '0' '0' (hexChar (n / 16)) (hexChar (n % 16)) = some n := by decide

/-- A character that needs no escape is read as its code point. -/
theorem codePoints?_cons {c : Char} (hmark : c ≠ '"') (hslash : c ≠ '\\')
    (hcontrol : ¬ c.toNat < 32) (cs : List Char) :
    codePoints? (c :: cs) = (codePoints? cs).map fun (ns, rest) => (c.toNat :: ns, rest) := by
  have hnot : (decide (c.toNat < 32) || decide (c = '\\')) = false := by simp [hcontrol, hslash]
  rw [codePoints?, if_neg (by rw [hnot]; exact Bool.false_ne_true)]
  · exact hmark
  · exact fun _ _ _ _ _ hc _ => hslash hc
  · exact fun _ _ hc _ => hslash hc

/-- A written character is read as its code point. -/
theorem codePoints?_escapeChar (c : Char) (cs : List Char) :
    codePoints? (escapeChar c ++ cs) =
      (codePoints? cs).map fun (ns, rest) => (c.toNat :: ns, rest) := by
  by_cases hmark : c = '"'
  · subst hmark; rfl
  by_cases hslash : c = '\\'
  · subst hslash; rfl
  by_cases hnewline : c = '\n'
  · subst hnewline; rfl
  by_cases hreturn : c = '\r'
  · subst hreturn; rfl
  by_cases htab : c = '\t'
  · subst htab; rfl
  by_cases hback : c = '\x08'
  · subst hback; rfl
  by_cases hfeed : c = '\x0c'
  · subst hfeed; rfl
  rw [escapeChar, if_neg hmark, if_neg hslash, if_neg hnewline, if_neg hreturn, if_neg htab,
    if_neg hback, if_neg hfeed]
  by_cases hcontrol : c.toNat < 32
  · rw [if_pos hcontrol]
    simp only [List.cons_append, List.nil_append, codePoints?, hexValue4?_control _ hcontrol]
  · rw [if_neg hcontrol]
    exact codePoints?_cons hmark hslash hcontrol cs

theorem codePoints?_escaped (cs rest : List Char) :
    codePoints? (cs.flatMap escapeChar ++ '"' :: rest) = some (cs.map Char.toNat, rest) := by
  induction cs with
  | nil => rw [List.flatMap_nil, List.nil_append, codePoints?, List.map_nil]
  | cons c cs ih =>
    rw [List.flatMap_cons, List.append_assoc, codePoints?_escapeChar, ih, Option.map_some,
      List.map_cons]

/-- Characters are no surrogates. -/
theorem not_surrogate (c : Char) : ¬ (0xD800 ≤ c.toNat ∧ c.toNat < 0xE000) := by
  have hvalid : c.toNat < 0xD800 ∨ 0xDFFF < c.toNat ∧ c.toNat < 0x110000 := c.valid
  omega

/-- A code point that is no surrogate is a character. -/
theorem joinSurrogates?_cons {n : Nat} (h : ¬ (0xD800 ≤ n ∧ n < 0xE000)) (ns : List Nat) :
    joinSurrogates? (n :: ns) = (joinSurrogates? ns).map (Char.ofNat n :: ·) := by
  have hhigh : (decide (0xD800 ≤ n) && decide (n < 0xDC00)) = false := by
    rw [Bool.and_eq_false_iff, decide_eq_false_iff_not, decide_eq_false_iff_not]
    omega
  have hlow : (decide (0xDC00 ≤ n) && decide (n < 0xE000)) = false := by
    rw [Bool.and_eq_false_iff, decide_eq_false_iff_not, decide_eq_false_iff_not]
    omega
  rw [joinSurrogates?.eq_def]
  simp only [hhigh, hlow, Bool.false_eq_true, if_false]

theorem joinSurrogates?_toNat (cs : List Char) :
    joinSurrogates? (cs.map Char.toNat) = some cs := by
  induction cs with
  | nil => rfl
  | cons c cs ih =>
    rw [List.map_cons, joinSurrogates?_cons (not_surrogate c), ih, Option.map_some,
      Char.ofNat_toNat]

/-- **Strings are read as they were written.** -/
theorem unquote_escaped (text : String) (rest : List Char) :
    unquote (text.toList.flatMap escapeChar ++ '"' :: rest) = some (some text, rest) := by
  rw [unquote, codePoints?_escaped, Option.map_some]
  simp only [joinSurrogates?_toNat, Option.map_some, String.ofList_toList]

end RecordFilter.Json
