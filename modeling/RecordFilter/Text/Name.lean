/-!
# Names compared without case

Operators, enum members and record fields are looked up by names whose ASCII case does not matter;
for record fields underscores may be left out as well. Both comparisons are equalities of a key:
two names are the same when their `nameKey`s, or their `looseKey`s, are equal.
-/

namespace RecordFilter.Text

/-- What is left of a name when ASCII case is ignored. -/
def nameKey (s : String) : List Char := s.toList.map Char.toLower

/-- What is left of a name when ASCII case and underscores are ignored. -/
def looseKey (s : String) : List Char := (nameKey s).filter (· != '_')

/-- Equal when ASCII case is ignored. -/
def sameName (a b : String) : Bool := nameKey a == nameKey b

/-- Equal when ASCII case and underscores are ignored. -/
def similarName (a b : String) : Bool := looseKey a == looseKey b

/-- Lowering changes the ASCII capitals only. -/
theorem toLower_cases (c : Char) : c.toLower = c ∨
    0x41 ≤ c.toNat ∧ c.toNat ≤ 0x5A ∧ c.toLower.toNat = c.toNat + 0x20 := by
  unfold Char.toLower
  split
  · next h =>
    have hfirst : 0x41 ≤ c.toNat := UInt32.le_iff_toNat_le.1 h.1
    have hlast : c.toNat ≤ 0x5A := UInt32.le_iff_toNat_le.1 h.2
    have hsmall : (c.val + ('a'.val - 'A'.val)).toNat = c.toNat + 0x20 := by
      rw [UInt32.toNat_add, show c.val.toNat = c.toNat from rfl,
        show ('a'.val - 'A'.val).toNat = 0x20 from rfl]
      omega
    exact .inr ⟨hfirst, hlast, hsmall⟩
  · exact .inl rfl

/-- Only letters are lowered, and only to letters. -/
theorem toLower_eq_iff {c d : Char} (hd : d.isAlpha = false) : c.toLower = d ↔ c = d := by
  rcases toLower_cases c with heq | ⟨hfirst, hlast, hsmall⟩
  · rw [heq]
  · have hcapital : c.isUpper = true :=
      decide_eq_true ⟨UInt32.le_iff_toNat_le.2 hfirst, UInt32.le_iff_toNat_le.2 hlast⟩
    have hlower : 0x61 ≤ c.toLower.toNat ∧ c.toLower.toNat ≤ 0x7A := by omega
    have hletter : c.toLower.isLower = true := by
      unfold Char.isLower
      simpa using
        ⟨UInt32.le_iff_toNat_le.2 hlower.1, UInt32.le_iff_toNat_le.2 hlower.2⟩
    constructor
    · rintro rfl
      have halpha : c.toLower.isAlpha = true := Bool.or_eq_true_iff.2 (.inr hletter)
      exact absurd (halpha.symm.trans hd) (by decide)
    · rintro rfl
      have halpha : c.isAlpha = true := Bool.or_eq_true_iff.2 (.inl hcapital)
      exact absurd (halpha.symm.trans hd) (by decide)

/-- Other characters than letters stand in a name when ASCII case is ignored. -/
theorem mem_nameKey_iff {c : Char} {s : String} (hc : c.isAlpha = false) :
    c ∈ nameKey s ↔ c ∈ s.toList := by
  simp only [nameKey, List.mem_map, toLower_eq_iff hc, exists_eq_right]

theorem mem_looseKey_iff {c : Char} {s : String} (hc : c.isAlpha = false) (hscore : c ≠ '_') :
    c ∈ looseKey s ↔ c ∈ s.toList := by
  rw [looseKey, List.mem_filter, mem_nameKey_iff hc]
  exact and_iff_left (by simpa using hscore)

/-- Nothing is left of a name just if it consists of underscores. -/
theorem looseKey_eq_nil_iff {s : String} : looseKey s = [] ↔ ∀ c ∈ s.toList, c = '_' := by
  simp only [looseKey, nameKey, List.filter_eq_nil_iff, List.forall_mem_map, bne_iff_ne, ne_eq,
    Decidable.not_not, toLower_eq_iff (show '_'.isAlpha = false by decide)]

theorem nameKey_eq_nil_iff {s : String} : nameKey s = [] ↔ s = "" := by
  simp [nameKey]

theorem sameName_iff {a b : String} : sameName a b = true ↔ nameKey a = nameKey b := by
  simp [sameName]

theorem similarName_iff {a b : String} : similarName a b = true ↔ looseKey a = looseKey b := by
  simp [similarName]

theorem similarName_of_sameName {a b : String} (h : sameName a b = true) :
    similarName a b = true := by
  rw [similarName_iff, looseKey, looseKey, sameName_iff.1 h]

/-- Where names differ even without ASCII case, a name is looked up without regard to the order. -/
theorem find?_sameName_eq_some_iff {α : Type} {name : α → String} {l : List α}
    (hl : l.Pairwise fun a b => sameName (name a) (name b) = false) {s : String} {a : α} :
    l.find? (fun x => sameName (name x) s) = some a ↔ a ∈ l ∧ sameName (name a) s = true := by
  constructor
  · intro h
    have hsame := List.find?_some h
    exact ⟨List.mem_of_find?_eq_some h, hsame⟩
  · rintro ⟨hmem, ha⟩
    induction l with
    | nil => cases hmem
    | cons b l ih =>
      obtain ⟨hb, hl⟩ := List.pairwise_cons.1 hl
      rcases List.mem_cons.1 hmem with rfl | hmem
      · rw [List.find?_cons, ha]
      · have hother : sameName (name b) s = false := by
          have hapart := hb a hmem
          rw [sameName, beq_eq_false_iff_ne] at hapart ⊢
          rwa [← sameName_iff.1 ha]
        rw [List.find?_cons, hother]
        exact ih hl hmem

end RecordFilter.Text
