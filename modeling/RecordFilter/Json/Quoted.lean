/-!
# Strings in JSON text

Writing escapes quotation marks, backslashes and control characters, the latter by a letter where
JSON has one and by their code in hexadecimal otherwise. Reading takes every escape of JSON; a
character beyond the first plane may be escaped as its two surrogates. A string with a surrogate
that has no partner is well-formed but denotes no text.
-/

namespace RecordFilter.Json

/-- A hexadecimal digit for a number below sixteen. -/
def hexChar (n : Nat) : Char := Nat.digitChar n

/-- The value of a hexadecimal digit. -/
def hexValue? (c : Char) : Option Nat :=
  if '0' ≤ c && c ≤ '9' then some (c.toNat - '0'.toNat)
  else if 'a' ≤ c && c ≤ 'f' then some (c.toNat - 'a'.toNat + 10)
  else if 'A' ≤ c && c ≤ 'F' then some (c.toNat - 'A'.toNat + 10)
  else none

/-- The value of four hexadecimal digits. -/
def hexValue4? (a b c d : Char) : Option Nat := do
  let a ← hexValue? a
  let b ← hexValue? b
  let c ← hexValue? c
  let d ← hexValue? d
  return ((a * 16 + b) * 16 + c) * 16 + d

/-- A character inside quotation marks. -/
def escapeChar (c : Char) : List Char :=
  if c = '"' then ['\\', '"']
  else if c = '\\' then ['\\', '\\']
  else if c = '\n' then ['\\', 'n']
  else if c = '\r' then ['\\', 'r']
  else if c = '\t' then ['\\', 't']
  else if c = '\x08' then ['\\', 'b']
  else if c = '\x0c' then ['\\', 'f']
  else if c.toNat < 32 then
    ['\\', 'u', '0', '0', hexChar (c.toNat / 16), hexChar (c.toNat % 16)]
  else [c]

/-- A text between quotation marks. -/
def quote (cs : List Char) : List Char := '"' :: cs.flatMap escapeChar ++ ['"']

/-- The character that a one-letter escape stands for. -/
def unescape? : Char → Option Char
  | '"' => some '"'
  | '\\' => some '\\'
  | '/' => some '/'
  | 'b' => some '\x08'
  | 'f' => some '\x0c'
  | 'n' => some '\n'
  | 'r' => some '\r'
  | 't' => some '\t'
  | _ => none

/-- Reads a string after its opening quotation mark: the code points between the marks, surrogates
not yet joined, and what follows the closing mark. -/
def codePoints? : List Char → Option (List Nat × List Char)
  | [] => none
  | '"' :: cs => some ([], cs)
  | '\\' :: 'u' :: a :: b :: c :: d :: cs =>
    match hexValue4? a b c d with
    | none => none
    | some n => (codePoints? cs).map fun (ns, rest) => (n :: ns, rest)
  | '\\' :: c :: cs =>
    match unescape? c with
    | none => none
    | some c => (codePoints? cs).map fun (ns, rest) => (c.toNat :: ns, rest)
  | c :: cs =>
    if c.toNat < 32 || c = '\\' then none
    else (codePoints? cs).map fun (ns, rest) => (c.toNat :: ns, rest)

/-- The characters of code points; two surrogates make one, and a single one none. -/
def joinSurrogates? : List Nat → Option (List Char)
  | [] => some []
  | n :: ns =>
    if 0xD800 ≤ n && n < 0xDC00 then
      match ns with
      | low :: ns =>
        if 0xDC00 ≤ low && low < 0xE000 then
          (joinSurrogates? ns).map
            (Char.ofNat (0x10000 + (n - 0xD800) * 0x400 + (low - 0xDC00)) :: ·)
        else none
      | [] => none
    else if 0xDC00 ≤ n && n < 0xE000 then none
    else (joinSurrogates? ns).map (Char.ofNat n :: ·)

/-- Reads a string after its opening quotation mark: the text, if it denotes one, and what follows
the closing mark. There is no result if the string is malformed. -/
def unquote (cs : List Char) : Option (Option String × List Char) :=
  (codePoints? cs).map fun (ns, rest) => ((joinSurrogates? ns).map String.ofList, rest)

theorem length_codePoints? {cs rest : List Char} {ns : List Nat}
    (h : codePoints? cs = some (ns, rest)) : rest.length < cs.length := by
  fun_induction codePoints? cs generalizing ns rest with
  | case1 => cases h
  | case2 cs => cases h; simp
  | case3 => cases h
  | case4 a b c d cs n hn ih =>
    obtain ⟨⟨ms, r⟩, hr, he⟩ := Option.map_eq_some_iff.1 h
    cases he
    have := ih hr
    simp only [List.length_cons]
    omega
  | case5 => cases h
  | case6 c cs hu d hd ih =>
    obtain ⟨⟨ms, r⟩, hr, he⟩ := Option.map_eq_some_iff.1 h
    cases he
    have := ih hr
    simp only [List.length_cons]
    omega
  | case7 => cases h
  | case8 c cs _ _ _ _ ih =>
    obtain ⟨⟨ms, r⟩, hr, he⟩ := Option.map_eq_some_iff.1 h
    cases he
    have := ih hr
    simp only [List.length_cons]
    omega

/-- Reading a string leaves a shorter text. -/
theorem length_unquote {cs rest : List Char} {text : Option String}
    (h : unquote cs = some (text, rest)) : rest.length < cs.length := by
  obtain ⟨⟨ns, r⟩, hr, he⟩ := Option.map_eq_some_iff.1 h
  cases he
  exact length_codePoints? hr

end RecordFilter.Json
