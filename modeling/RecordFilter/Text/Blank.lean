/-!
# Blank characters and trimming

Field paths and literals arrive with stray blanks around them. A blank is a character with the
Unicode property White_Space; trimming removes the blanks at both ends and nothing else, so
trimming twice is trimming once (`trim_trim`).
-/

namespace RecordFilter.Text

/-- The twenty-five characters with the Unicode property White_Space. -/
def isBlank (c : Char) : Bool :=
  let n := c.toNat
  (0x9 ≤ n && n ≤ 0xD) || n == 0x20 || n == 0x85 || n == 0xA0 || n == 0x1680 ||
    (0x2000 ≤ n && n ≤ 0x200A) || n == 0x2028 || n == 0x2029 || n == 0x202F || n == 0x205F ||
    n == 0x3000

/-- The visible ASCII characters are no blanks. -/
theorem isBlank_eq_false {c : Char} (h : 0x21 ≤ c.toNat) (h' : c.toNat ≤ 0x7E) :
    isBlank c = false := by
  simp only [isBlank, Bool.or_eq_false_iff, Bool.and_eq_false_iff, decide_eq_false_iff_not,
    beq_eq_false_iff_ne]
  omega

/-- Drops the blanks in front. -/
def trimLeft (cs : List Char) : List Char := cs.dropWhile isBlank

/-- Drops the blanks at the end. -/
def trimRight (cs : List Char) : List Char := (trimLeft cs.reverse).reverse

/-- Drops the blanks at both ends. -/
def trimChars (cs : List Char) : List Char := trimRight (trimLeft cs)

/-- Drops the blanks at both ends. -/
def trim (s : String) : String := String.ofList (trimChars s.toList)

theorem trimLeft_cons_of_not {c : Char} (h : isBlank c = false) (cs : List Char) :
    trimLeft (c :: cs) = c :: cs := by
  simp [trimLeft, h]

/-- After `trimLeft` there is nothing left, or no blank in front. -/
theorem trimLeft_eq_nil_or (cs : List Char) :
    trimLeft cs = [] ∨ ∃ c rest, trimLeft cs = c :: rest ∧ isBlank c = false := by
  induction cs with
  | nil => exact .inl rfl
  | cons c cs ih =>
    cases h : isBlank c with
    | true => simpa [trimLeft, h] using ih
    | false => exact .inr ⟨c, cs, trimLeft_cons_of_not h cs, h⟩

theorem trimLeft_trimLeft (cs : List Char) : trimLeft (trimLeft cs) = trimLeft cs := by
  rcases trimLeft_eq_nil_or cs with h | ⟨c, rest, h, hc⟩
  · rw [h]; rfl
  · rw [h, trimLeft_cons_of_not hc]

theorem trimRight_trimRight (cs : List Char) : trimRight (trimRight cs) = trimRight cs := by
  simp [trimRight, trimLeft_trimLeft]

/-- The front of a text that starts with no blank survives trimming the end. -/
theorem trimRight_cons_of_not {c : Char} (h : isBlank c = false) (cs : List Char) :
    ∃ rest, trimRight (c :: cs) = c :: rest := by
  have key : ∀ l : List Char, ∃ rest, trimLeft (l ++ [c]) = rest ++ [c] := by
    intro l
    induction l with
    | nil => exact ⟨[], by simp [trimLeft, h]⟩
    | cons a l ih =>
      cases ha : isBlank a with
      | true => simpa [trimLeft, ha] using ih
      | false => exact ⟨a :: l, by simp [trimLeft, ha]⟩
  obtain ⟨rest, hr⟩ := key cs.reverse
  exact ⟨rest.reverse, by simp [trimRight, hr]⟩

theorem trimChars_trimChars (cs : List Char) : trimChars (trimChars cs) = trimChars cs := by
  rcases trimLeft_eq_nil_or cs with h | ⟨c, rest, h, hc⟩
  · have : trimChars cs = [] := by rw [trimChars, h]; rfl
    rw [this]; rfl
  · obtain ⟨rest', hr⟩ := trimRight_cons_of_not hc rest
    have hfix : trimLeft (trimChars cs) = trimChars cs := by
      rw [trimChars, h, hr, trimLeft_cons_of_not hc]
    rw [trimChars, hfix, trimChars, trimRight_trimRight]

@[simp] theorem trim_trim (s : String) : trim (trim s) = trim s := by
  simp [trim, trimChars_trimChars]

end RecordFilter.Text
