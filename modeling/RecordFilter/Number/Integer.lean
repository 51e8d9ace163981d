/-!
# Whole numbers as text

Decimal digits with an optional sign. Writing uses no sign but a minus and no leading zeros;
reading takes either sign and any number of leading zeros. What is written reads back
(`readInt?_intChars`). Literals and fields hold `Int128`, the whole numbers of 128 signed bits.
-/

namespace RecordFilter

-- Powers are the repeated products of core, whatever else is imported beside this module.
attribute [local instance (high)] instPowNat

/-- The decimal digits of a whole number, after a minus if it is negative. -/
def intChars (i : Int) : List Char :=
  if i < 0 then '-' :: Nat.toDigits 10 i.natAbs else Nat.toDigits 10 i.natAbs

/-- The decimal text of a whole number. -/
def intText (i : Int) : String := String.ofList (intChars i)

/-- The number that one or more digits and nothing else denote. -/
def readNat? (cs : List Char) : Option Nat :=
  if cs.isEmpty then none
  else if cs.all Char.isDigit then some (Nat.ofDigitChars 10 cs 0) else none

/-- The number that an optional sign and one or more digits denote. -/
def readInt? : List Char → Option Int
  | '-' :: cs => (readNat? cs).map fun n : Nat => -(n : Int)
  | '+' :: cs => (readNat? cs).map Int.ofNat
  | cs => (readNat? cs).map Int.ofNat

theorem toNat_of_isDigit {c : Char} (h : c.isDigit = true) : 0x30 ≤ c.toNat ∧ c.toNat ≤ 0x39 := by
  simp only [Char.isDigit, Bool.and_eq_true, decide_eq_true_eq] at h
  exact ⟨UInt32.le_iff_toNat_le.1 h.1, UInt32.le_iff_toNat_le.1 h.2⟩

/-- Digits end where something else starts. -/
theorem span_digits {digits rest : List Char} (hdigits : ∀ c ∈ digits, c.isDigit = true)
    (hrest : ∀ c ∈ rest.head?, c.isDigit = false) :
    (digits ++ rest).takeWhile Char.isDigit = digits ∧
      (digits ++ rest).dropWhile Char.isDigit = rest := by
  have hstop : rest.takeWhile Char.isDigit = [] ∧ rest.dropWhile Char.isDigit = rest := by
    cases rest with
    | nil => exact ⟨rfl, rfl⟩
    | cons c rest => simp [hrest c rfl]
  rw [List.takeWhile_append_of_pos hdigits, List.dropWhile_append_of_pos hdigits, hstop.1, hstop.2,
    List.append_nil]
  exact ⟨rfl, rfl⟩

theorem readNat?_toDigits (n : Nat) : readNat? (Nat.toDigits 10 n) = some n := by
  have hd : (Nat.toDigits 10 n).all Char.isDigit = true :=
    List.all_eq_true.2 fun _ hc => Nat.isDigit_of_mem_toDigits (by decide) (by decide) hc
  have hne : (Nat.toDigits 10 n).isEmpty = false := by simp
  simp [readNat?, hd, hne]

/-- A text that starts with a digit has no sign to read. -/
theorem readInt?_of_isDigit {c : Char} {cs : List Char} (h : c.isDigit = true) :
    readInt? (c :: cs) = (readNat? (c :: cs)).map Int.ofNat := by
  have hm : c ≠ '-' := by rintro rfl; exact absurd h (by decide)
  have hp : c ≠ '+' := by rintro rfl; exact absurd h (by decide)
  unfold readInt?
  split
  · next heq => exact absurd (List.cons.inj heq).1 hm
  · next heq => exact absurd (List.cons.inj heq).1 hp
  · rfl

theorem readInt?_toDigits (n : Nat) : readInt? (Nat.toDigits 10 n) = some (n : Int) := by
  have hread := readNat?_toDigits n
  cases hcs : Nat.toDigits 10 n with
  | nil => exact absurd hcs Nat.toDigits_ne_nil
  | cons c cs =>
    have hc : c.isDigit = true :=
      Nat.isDigit_of_mem_toDigits (b := 10) (n := n) (by decide) (by decide) (by simp [hcs])
    rw [readInt?_of_isDigit hc, ← hcs, hread]
    rfl

theorem readInt?_intChars (i : Int) : readInt? (intChars i) = some i := by
  unfold intChars
  split
  · next h =>
    show ((readNat? (Nat.toDigits 10 i.natAbs)).map fun n : Nat => -(n : Int)) = some i
    rw [readNat?_toDigits, Option.map_some]
    congr 1
    omega
  · next h =>
    rw [readInt?_toDigits]
    congr 1
    omega

/-- A whole number of 128 signed bits. -/
structure Int128 where
  val : Int
  lower : -2 ^ (127 : Nat) ≤ val
  upper : val < 2 ^ (127 : Nat)
deriving DecidableEq

namespace Int128

/-- The number itself if it has at most 128 signed bits. -/
def ofInt? (i : Int) : Option Int128 :=
  if h : -2 ^ (127 : Nat) ≤ i ∧ i < 2 ^ (127 : Nat) then some ⟨i, h.1, h.2⟩ else none

/-- The number of 128 signed bits that is nearest to a whole number. -/
def clamp (i : Int) : Int128 :=
  if h : -2 ^ (127 : Nat) ≤ i ∧ i < 2 ^ (127 : Nat) then ⟨i, h.1, h.2⟩
  else if i < 0 then ⟨-2 ^ (127 : Nat), by decide, by decide⟩
  else ⟨2 ^ (127 : Nat) - 1, by decide, by decide⟩

/-- The number that an optional sign and digits denote, if it has at most 128 signed bits. -/
def ofChars? (cs : List Char) : Option Int128 := (readInt? cs).bind ofInt?

/-- The decimal text. -/
def text (i : Int128) : String := intText i.val

@[simp] theorem ofInt?_val (i : Int128) : ofInt? i.val = some i := by
  exact dif_pos ⟨i.lower, i.upper⟩

theorem ofInt?_eq_some_iff {i : Int} {j : Int128} : ofInt? i = some j ↔ j.val = i := by
  constructor
  · intro h
    unfold ofInt? at h
    split at h
    · cases h; rfl
    · cases h
  · rintro rfl; exact ofInt?_val j

end Int128

end RecordFilter
