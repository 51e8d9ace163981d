import Mathlib.Algebra.Order.Field.Rat
import Mathlib.Data.Rat.Cast.Order
import Mathlib.Data.Rat.Floor
import Mathlib.Tactic.Linarith
import Mathlib.Tactic.Ring
import RecordFilter.Number.Binary64

/-!
# Rounding to the nearest magnitude

`BinaryFormat.OnGrid` are the magnitudes that a format would have without a bound. They follow each
other by `next`: nothing lies between one and the next, and of the two just one is even. So every
number has a nearest magnitude, of two equally near the even one, and no other (`Nearest.unique`).

1. `nearest_round`: it is the one that `BinaryFormat.round` finds.
2. `Nearest.le_of_le`, `Nearest.ge_of_ge`: rounding never passes a magnitude of the format.
3. `Nearest.mul_le`: it makes a number larger by a small part of itself only.
4. `nearest_iff_not_halfway`: rounding to a finer format first makes a difference only where that
   ends halfway between two magnitudes of the coarser one, and then on one side of it.
-/

namespace RecordFilter

-- Powers are the repeated products of core, whatever else is imported beside this module.
attribute [local instance (high)] instPowNat

namespace BinaryFormat

/-! ## The grid -/

/-- A magnitude that the format would have without a bound. -/
def OnGrid (f : BinaryFormat) (u : Nat) : Prop := u % 2 ^ f.grid u = 0

instance (f : BinaryFormat) (u : Nat) : Decidable (f.OnGrid u) := by unfold OnGrid; infer_instance

/-- How often a magnitude has the spacing of the grid on which it lies. -/
def significand (f : BinaryFormat) (u : Nat) : Nat := u / 2 ^ f.grid u

/-- The magnitude after one on the grid. -/
def next (f : BinaryFormat) (u : Nat) : Nat := u + 2 ^ f.grid u

/-- The last magnitude up to `k`. -/
def below (f : BinaryFormat) (k : Nat) : Nat := k / 2 ^ f.grid k * 2 ^ f.grid k

variable {f : BinaryFormat} {u v k : Nat}

theorem holds_iff : f.Holds u ↔ u < 2 ^ f.bound ∧ f.OnGrid u := Iff.rfl

theorem finest_le_grid (f : BinaryFormat) (u : Nat) : f.finest ≤ f.grid u := Nat.le_max_left ..

theorem grid_mono (h : u ≤ v) : f.grid u ≤ f.grid v := by
  have hlog : u.log2 ≤ v.log2 := by
    by_cases hu : u = 0
    · subst hu
      exact Nat.zero_le _
    · rw [Nat.le_log2 (by omega)]
      exact (Nat.log2_self_le hu).trans h
  unfold grid
  omega

theorem onGrid_iff_dvd : f.OnGrid u ↔ 2 ^ f.grid u ∣ u := (Nat.dvd_iff_mod_eq_zero).symm

/-- A magnitude that is a multiple of a spacing at least as wide as its own is on the grid. -/
theorem onGrid_of_dvd {g : Nat} (hg : f.grid u ≤ g) (h : 2 ^ g ∣ u) : f.OnGrid u :=
  onGrid_iff_dvd.2 ((Nat.pow_dvd_pow 2 hg).trans h)

theorem significand_mul (h : f.OnGrid u) : f.significand u * 2 ^ f.grid u = u :=
  Nat.div_mul_cancel (onGrid_iff_dvd.1 h)

/-- Every magnitude is less than the power of two where the next wider grid starts. -/
theorem lt_two_pow (f : BinaryFormat) (u : Nat) : u < 2 ^ (f.grid u + f.precision) := by
  refine Nat.lt_log2_self.trans_le (Nat.pow_le_pow_right (by decide) ?_)
  unfold grid
  omega

/-- From the power of two on where a grid starts there is none finer. -/
theorem le_grid_of_le {g : Nat} (h : 2 ^ (g + f.precision) ≤ u) : g + 1 ≤ f.grid u := by
  have hu : u ≠ 0 := by
    have := Nat.two_pow_pos (g + f.precision)
    omega
  have hlog := (Nat.le_log2 hu).2 h
  unfold grid
  omega

theorem lt_next (f : BinaryFormat) (u : Nat) : u < f.next u :=
  Nat.lt_add_of_pos_right (Nat.two_pow_pos _)

/-- Nothing lies between a magnitude and the next. -/
theorem next_le_of_lt (hu : f.OnGrid u) (hv : f.OnGrid v) (h : u < v) : f.next u ≤ v := by
  have hdvd : 2 ^ f.grid u ∣ v - u :=
    Nat.dvd_sub ((Nat.pow_dvd_pow 2 (grid_mono h.le)).trans (onGrid_iff_dvd.1 hv))
      (onGrid_iff_dvd.1 hu)
  have hle := Nat.le_of_dvd (by omega) hdvd
  unfold next
  omega

section Grid

variable (hp : 2 ≤ f.precision)

include hp

theorem grid_le_of_lt {g : Nat} (hg : f.finest ≤ g) (h : u < 2 ^ (g + f.precision)) :
    f.grid u ≤ g := by
  refine Nat.max_le.2 ⟨hg, ?_⟩
  by_cases hu : u = 0
  · subst hu
    rw [Nat.log2_zero]
    omega
  · have hlog := (Nat.log2_lt hu).2 h
    omega

/-- The next magnitude is on the same grid, or it is the power of two where the next one starts. -/
theorem next_cases (h : f.OnGrid u) :
    f.grid (f.next u) = f.grid u ∨
      f.grid (f.next u) = f.grid u + 1 ∧ f.next u = 2 ^ (f.grid u + f.precision) := by
  have hmul := significand_mul h
  have hmono : f.grid u ≤ f.grid (f.next u) := grid_mono (lt_next f u).le
  have hnext : f.next u = (f.significand u + 1) * 2 ^ f.grid u := by
    rw [next, Nat.add_one_mul, hmul]
  have hsig : f.significand u < 2 ^ f.precision := by
    refine Nat.lt_of_mul_lt_mul_right (a := 2 ^ f.grid u) ?_
    rw [hmul, ← Nat.pow_add, Nat.add_comm]
    exact lt_two_pow f u
  rcases Nat.lt_or_ge (f.next u) (2 ^ (f.grid u + f.precision)) with hlt | hge
  · exact .inl (Nat.le_antisymm (grid_le_of_lt hp (finest_le_grid f u) hlt) hmono)
  · refine .inr ?_
    have heq : f.next u = 2 ^ (f.grid u + f.precision) := by
      refine Nat.le_antisymm ?_ hge
      rw [hnext, Nat.add_comm (f.grid u), Nat.pow_add]
      exact Nat.mul_le_mul_right _ hsig
    refine ⟨Nat.le_antisymm (grid_le_of_lt hp ?_ ?_) (le_grid_of_le hge), heq⟩
    · exact (finest_le_grid f u).trans (Nat.le_succ _)
    · rw [heq]
      exact Nat.pow_lt_pow_right (by decide) (by omega)

theorem onGrid_next (h : f.OnGrid u) : f.OnGrid (f.next u) := by
  rcases next_cases hp h with hgrid | ⟨hgrid, heq⟩
  · rw [onGrid_iff_dvd, hgrid]
    exact Nat.dvd_add (onGrid_iff_dvd.1 h) (Nat.dvd_refl _)
  · rw [onGrid_iff_dvd, hgrid, heq]
    exact Nat.pow_dvd_pow 2 (by omega)

/-- Of a magnitude and the next just one is even. -/
theorem significand_next_mod_two (h : f.OnGrid u) :
    f.significand (f.next u) % 2 = 1 - f.significand u % 2 := by
  have hpos : 0 < 2 ^ f.grid u := Nat.two_pow_pos _
  have hstep : f.next u / 2 ^ f.grid u = f.significand u + 1 := by
    rw [next, Nat.add_div_right _ hpos, significand]
  rcases next_cases hp h with hgrid | ⟨hgrid, heq⟩
  · rw [significand, hgrid, hstep]
    omega
  · -- The significand was all ones, and is a power of two on the wider grid.
    have hones : f.significand u + 1 = 2 ^ f.precision := by
      rw [← hstep, heq, Nat.pow_add, Nat.mul_div_cancel_left _ hpos]
    have hpower : f.significand (f.next u) = 2 ^ (f.precision - 1) := by
      have hsplit : f.grid u + f.precision = f.grid u + 1 + (f.precision - 1) := by omega
      rw [significand, hgrid, heq, hsplit, Nat.pow_add,
        Nat.mul_div_cancel_left _ (Nat.two_pow_pos _)]
    have hhalf : 2 ^ (f.precision - 1) = 2 ^ (f.precision - 2) * 2 := by
      rw [← Nat.pow_succ]
      congr 1
      omega
    have hwhole : 2 ^ f.precision = 2 ^ (f.precision - 1) * 2 := by
      rw [← Nat.pow_succ]
      congr 1
      omega
    omega

theorem grid_below (k : Nat) : f.grid (f.below k) = f.grid k := by
  have hle : f.below k ≤ k := Nat.div_mul_le_self ..
  refine Nat.le_antisymm (grid_mono hle) ?_
  rcases Nat.eq_or_lt_of_le (finest_le_grid f k) with heq | hlt
  · rw [← heq]
    exact finest_le_grid f _
  · -- The power of two up to `k` is a multiple of the spacing, so `below` does not fall under it.
    have hgrid : f.grid k = k.log2 + 1 - f.precision := by
      unfold grid at hlt ⊢
      omega
    have hk : k ≠ 0 := by
      rintro rfl
      rw [Nat.log2_zero] at hgrid
      omega
    have hdvd : 2 ^ f.grid k ∣ 2 ^ k.log2 := Nat.pow_dvd_pow 2 (by omega)
    have hpow : 2 ^ k.log2 ≤ f.below k := by
      rw [below, ← Nat.div_mul_cancel hdvd]
      exact Nat.mul_le_mul_right _ (Nat.div_le_div_right (Nat.log2_self_le hk))
    have hmono : f.grid (2 ^ k.log2) ≤ f.grid (f.below k) := grid_mono hpow
    rw [hgrid]
    refine Nat.le_trans ?_ hmono
    rw [grid, Nat.log2_two_pow]
    exact Nat.le_max_right ..

theorem onGrid_below (k : Nat) : f.OnGrid (f.below k) := by
  rw [onGrid_iff_dvd, grid_below hp]
  exact Nat.dvd_mul_left ..

theorem lt_next_below (k : Nat) : k < f.next (f.below k) := by
  rw [next, grid_below hp, below]
  have := Nat.div_add_mod' k (2 ^ f.grid k)
  have := Nat.mod_lt k (Nat.two_pow_pos (f.grid k))
  omega

end Grid

/-! ## The nearest magnitude -/

/-- The magnitude nearest to a number, even if another one is equally near. -/
structure Nearest (f : BinaryFormat) (x : ℚ) (u : Nat) : Prop where
  onGrid : f.OnGrid u
  le : ∀ t, f.OnGrid t → |x - u| ≤ |x - t|
  even : ∀ t, f.OnGrid t → t ≠ u → |x - t| = |x - u| → f.significand u % 2 = 0

variable {x : ℚ} {a : Nat}

/-- A magnitude is nearest to what lies between it and the middle to the next one. -/
theorem nearest_left (ha : f.OnGrid a) (hle : a ≤ x) (hmid : 2 * x ≤ a + f.next a)
    (heven : 2 * x = a + f.next a → f.significand a % 2 = 0) : f.Nearest x a := by
  have hnext : (a : ℚ) < f.next a := by exact_mod_cast lt_next f a
  have hside : ∀ t, f.OnGrid t → t ≠ a → (t : ℚ) < a ∨ (f.next a : ℚ) ≤ t := by
    intro t ht hne
    rcases Nat.lt_or_gt_of_ne hne with hlt | hgt
    · exact .inl (by exact_mod_cast hlt)
    · exact .inr (by exact_mod_cast next_le_of_lt ha ht hgt)
  have hdist : |x - a| = x - a := abs_of_nonneg (by linarith)
  refine ⟨ha, fun t ht => ?_, fun t ht hne heq => ?_⟩
  · by_cases hne : t = a
    · rw [hne]
    rw [hdist]
    rcases hside t ht hne with hlt | hge
    · rw [abs_of_nonneg (by linarith)]
      linarith
    · rw [abs_of_nonpos (by linarith)]
      linarith
  · rw [hdist] at heq
    rcases hside t ht hne with hlt | hge
    · rw [abs_of_nonneg (by linarith)] at heq
      linarith
    · rw [abs_of_nonpos (by linarith)] at heq
      exact heven (by linarith)

/-- The next magnitude is nearest to what lies between the middle and it. -/
theorem nearest_right (hp : 2 ≤ f.precision) (ha : f.OnGrid a) (hle : x ≤ f.next a)
    (hmid : a + f.next a ≤ 2 * x)
    (heven : 2 * x = a + f.next a → f.significand (f.next a) % 2 = 0) : f.Nearest x (f.next a) := by
  have hnext : (a : ℚ) < f.next a := by exact_mod_cast lt_next f a
  have hside : ∀ t, f.OnGrid t → t ≠ f.next a → (t : ℚ) ≤ a ∨ (f.next a : ℚ) < t := by
    intro t ht hne
    rcases le_or_gt t a with hle | hgt
    · exact .inl (by exact_mod_cast hle)
    · have := Nat.lt_of_le_of_ne (next_le_of_lt ha ht hgt) (Ne.symm hne)
      exact .inr (by exact_mod_cast this)
  have hdist : |x - f.next a| = f.next a - x := by
    rw [abs_of_nonpos (by linarith), neg_sub]
  refine ⟨onGrid_next hp ha, fun t ht => ?_, fun t ht hne heq => ?_⟩
  · by_cases hne : t = f.next a
    · rw [hne]
    rw [hdist]
    rcases hside t ht hne with hle | hgt
    · rw [abs_of_nonneg (by linarith)]
      linarith
    · rw [abs_of_nonpos (by linarith)]
      linarith
  · rw [hdist] at heq
    rcases hside t ht hne with hle | hgt
    · rw [abs_of_nonneg (by linarith)] at heq
      exact heven (by linarith)
    · rw [abs_of_nonpos (by linarith)] at heq
      linarith

theorem exists_around (hp : 2 ≤ f.precision) (hx : 0 ≤ x) :
    ∃ a, f.OnGrid a ∧ a ≤ x ∧ x < f.next a := by
  refine ⟨f.below ⌊x⌋₊, onGrid_below hp _, ?_, ?_⟩
  · have hle : f.below ⌊x⌋₊ ≤ ⌊x⌋₊ := Nat.div_mul_le_self ..
    exact (Nat.cast_le.2 hle).trans (Nat.floor_le hx)
  · have hlt : ⌊x⌋₊ + 1 ≤ f.next (f.below ⌊x⌋₊) := lt_next_below hp _
    exact (Nat.lt_floor_add_one x).trans_le (by exact_mod_cast hlt)

/-- Rounding goes to one of the two magnitudes around a fraction, as the remainder has it. -/
theorem round_eq (hp : 2 ≤ f.precision) (num den : Nat) :
    let a := f.below (num / den)
    let width := den * 2 ^ f.grid (num / den)
    f.round num den =
      if 2 * (num % width) < width then a
      else if width < 2 * (num % width) then f.next a
      else if f.significand a % 2 = 0 then a else f.next a := by
  intro a width
  have ha : a = num / width * 2 ^ f.grid (num / den) := by
    rw [show a = f.below (num / den) from rfl, below, Nat.div_div_eq_div_mul]
  have hnext : f.next a = (num / width + 1) * 2 ^ f.grid (num / den) := by
    rw [next, show f.grid a = f.grid (num / den) from grid_below hp _, ha, Nat.add_one_mul]
  have hsig : f.significand a = num / width := by
    rw [significand, show f.grid a = f.grid (num / den) from grid_below hp _, ha,
      Nat.mul_div_cancel _ (Nat.two_pow_pos _)]
  rw [hnext, hsig, round, roundHalfEven]
  split
  · exact ha.symm
  · split
    · rfl
    · split
      · next heven => rw [heven, Nat.add_zero, ha]
      · next hodd => rw [Nat.mod_two_ne_zero.1 hodd]

/-- **Rounding finds the nearest magnitude.** -/
theorem nearest_round (hp : 2 ≤ f.precision) (num : Nat) {den : Nat} (hden : 0 < den) :
    f.Nearest ((num : ℚ) / den) (f.round num den) := by
  have hdenQ : (0 : ℚ) < den := by exact_mod_cast hden
  rw [round_eq hp]
  have ha : f.OnGrid (f.below (num / den)) := onGrid_below hp _
  have hnext : f.next (f.below (num / den)) * den =
      f.below (num / den) * den + den * 2 ^ f.grid (num / den) := by
    rw [next, grid_below hp]
    ring
  have hnum : num = f.below (num / den) * den + num % (den * 2 ^ f.grid (num / den)) := by
    rw [below, Nat.div_div_eq_div_mul, Nat.mul_assoc, Nat.mul_comm (2 ^ _) den,
      Nat.div_add_mod']
  have hr : num % (den * 2 ^ f.grid (num / den)) < den * 2 ^ f.grid (num / den) :=
    Nat.mod_lt _ (Nat.mul_pos hden (Nat.two_pow_pos _))
  generalize f.below (num / den) = a at ha hnext hnum ⊢
  generalize den * 2 ^ f.grid (num / den) = width at hnext hnum hr ⊢
  generalize num % width = r at hnum hr ⊢
  -- Where the fraction lies is read off the remainder.
  have hle : (a : ℚ) ≤ num / den := by
    rw [le_div_iff₀ hdenQ]
    exact_mod_cast (by omega : a * den ≤ num)
  have hge : (num : ℚ) / den ≤ f.next a := by
    rw [div_le_iff₀ hdenQ]
    exact_mod_cast (by omega : num ≤ f.next a * den)
  have hleft (h : 2 * r ≤ width) : 2 * ((num : ℚ) / den) ≤ a + f.next a := by
    rw [← mul_div_assoc, div_le_iff₀ hdenQ, add_mul]
    exact_mod_cast (by omega : 2 * num ≤ a * den + f.next a * den)
  have hright (h : width ≤ 2 * r) : a + f.next a ≤ 2 * ((num : ℚ) / den) := by
    rw [← mul_div_assoc, le_div_iff₀ hdenQ, add_mul]
    exact_mod_cast (by omega : a * den + f.next a * den ≤ 2 * num)
  have hmiddle (h : 2 * ((num : ℚ) / den) = a + f.next a) : 2 * r = width := by
    rw [← mul_div_assoc, div_eq_iff hdenQ.ne', add_mul] at h
    have h : 2 * num = a * den + f.next a * den := by exact_mod_cast h
    omega
  split
  · next hlt => exact nearest_left ha hle (hleft hlt.le) fun h => absurd (hmiddle h) hlt.ne
  · split
    · next hgt =>
      exact nearest_right hp ha hge (hright hgt.le) fun h => absurd (hmiddle h) hgt.ne'
    · next hlt hgt =>
      split
      · next heven => exact nearest_left ha hle (hleft (by omega)) fun _ => heven
      · next hodd =>
        have hparity := significand_next_mod_two hp ha
        exact nearest_right hp ha hge (hright (by omega)) fun _ => by omega

namespace Nearest

/-- Rounding never goes up past a magnitude. -/
theorem le_of_le (h : f.Nearest x u) (ht : f.OnGrid v) (hx : x ≤ v) : u ≤ v := by
  by_contra hlt
  have hlt : (v : ℚ) < u := by exact_mod_cast Nat.lt_of_not_le hlt
  have hle := h.le v ht
  rw [abs_of_nonpos (by linarith), abs_of_nonpos (by linarith)] at hle
  linarith

/-- Rounding never goes down past a magnitude. -/
theorem ge_of_ge (h : f.Nearest x u) (ht : f.OnGrid v) (hx : v ≤ x) : v ≤ u := by
  by_contra hlt
  have hlt : (u : ℚ) < v := by exact_mod_cast Nat.lt_of_not_le hlt
  have hle := h.le v ht
  rw [abs_of_nonneg (by linarith), abs_of_nonneg (by linarith)] at hle
  linarith

/-- A magnitude is rounded to itself. -/
theorem eq_of_onGrid (h : f.Nearest v u) (hv : f.OnGrid v) : u = v :=
  Nat.le_antisymm (h.le_of_le hv le_rfl) (h.ge_of_ge hv le_rfl)

theorem self (hv : f.OnGrid v) : f.Nearest v v := by
  refine ⟨hv, fun t _ => ?_, fun t _ hne heq => ?_⟩
  · rw [sub_self, abs_zero]
    exact abs_nonneg _
  · rw [sub_self, abs_zero, abs_eq_zero, sub_eq_zero] at heq
    exact absurd (by exact_mod_cast heq.symm) hne

/-- **There is one nearest magnitude.** -/
theorem unique (hp : 2 ≤ f.precision) (hu : f.Nearest x u) (hv : f.Nearest x v) : u = v := by
  wlog hlt : u < v generalizing u v
  · rcases Nat.eq_or_lt_of_le (Nat.le_of_not_lt hlt) with heq | hgt
    · exact heq.symm
    · exact (this hv hu hgt).symm
  -- Both are equally near, so `x` is in the middle, and nothing on the grid lies between them.
  exfalso
  have hltQ : (u : ℚ) < v := by exact_mod_cast hlt
  have hdist := le_antisymm (hu.le v hv.onGrid) (hv.le u hu.onGrid)
  have hmid : 2 * x = u + v := by
    rcases le_or_gt x u with hle | hgt
    · rw [abs_of_nonpos (by linarith), abs_of_nonpos (by linarith)] at hdist
      linarith
    · rcases le_or_gt x v with hle | hgt'
      · rw [abs_of_nonneg (by linarith), abs_of_nonpos (by linarith)] at hdist
        linarith
      · rw [abs_of_nonneg (by linarith), abs_of_nonneg (by linarith)] at hdist
        linarith
  have hnext : f.next u ≤ v := next_le_of_lt hu.onGrid hv.onGrid hlt
  have hadjacent : v ≤ f.next u := by
    have hle := hv.le _ (onGrid_next hp hu.onGrid)
    have hnextQ : (f.next u : ℚ) ≤ v := by exact_mod_cast hnext
    have hltnext : (u : ℚ) < f.next u := by exact_mod_cast lt_next f u
    rw [abs_of_nonpos (by linarith), neg_sub] at hle
    rcases le_or_gt x (f.next u) with hx | hx
    · rw [abs_of_nonpos (by linarith)] at hle
      exact_mod_cast (by linarith : (v : ℚ) ≤ f.next u)
    · rw [abs_of_nonneg (by linarith)] at hle
      linarith
  have hsucc := Nat.le_antisymm hadjacent hnext
  have heven := hu.even v hv.onGrid hlt.ne' hdist.symm
  have heven' := hv.even u hu.onGrid hlt.ne hdist
  have hparity := significand_next_mod_two hp hu.onGrid
  rw [← hsucc] at hparity
  omega

/-- Rounding makes a number larger by a small part of itself only, unless it is among the smallest
of the format. -/
theorem mul_le (hp : 2 ≤ f.precision) (h : f.Nearest x u)
    (hx : ((2 ^ (f.finest + (f.precision - 1)) : Nat) : ℚ) ≤ x) :
    (u : ℚ) * 2 ^ (f.precision - 1) ≤ x * (2 ^ (f.precision - 1) + 1) := by
  obtain ⟨a, ha, hle, hlt⟩ := exists_around hp ((Nat.cast_nonneg _).trans hx)
  have hsmallest : f.OnGrid (2 ^ (f.finest + (f.precision - 1))) := by
    refine onGrid_of_dvd (g := f.finest) ?_ (Nat.pow_dvd_pow 2 (Nat.le_add_right ..))
    rw [grid, Nat.log2_two_pow]
    omega
  have hlarge : 2 ^ (f.finest + (f.precision - 1)) ≤ a := by
    by_contra hsmall
    have hnext := next_le_of_lt ha hsmallest (Nat.lt_of_not_le hsmall)
    exact absurd (hx.trans_lt hlt) (not_lt.2 (by exact_mod_cast hnext))
  -- Above the finest grid the spacing is a fixed part of the leading power of two.
  have hgrid : 2 ^ f.grid a * 2 ^ (f.precision - 1) ≤ a := by
    have hne : a ≠ 0 := by
      have := Nat.two_pow_pos (f.finest + (f.precision - 1))
      omega
    have hlog := (Nat.le_log2 hne).2 hlarge
    rw [← Nat.pow_add, grid, show max f.finest (a.log2 + 1 - f.precision) + (f.precision - 1) =
      a.log2 by omega]
    exact Nat.log2_self_le hne
  have hu : u ≤ a + 2 ^ f.grid a := h.le_of_le (onGrid_next hp ha) hlt.le
  have hgridQ : (2 ^ f.grid a : ℚ) * 2 ^ (f.precision - 1) ≤ a := by exact_mod_cast hgrid
  calc (u : ℚ) * 2 ^ (f.precision - 1) ≤ (a + 2 ^ f.grid a) * 2 ^ (f.precision - 1) :=
        mul_le_mul_of_nonneg_right (by exact_mod_cast hu) (by positivity)
    _ = a * 2 ^ (f.precision - 1) + 2 ^ f.grid a * 2 ^ (f.precision - 1) := add_mul ..
    _ ≤ x * 2 ^ (f.precision - 1) + x :=
        add_le_add (mul_le_mul_of_nonneg_right hle (by positivity)) (hgridQ.trans hle)
    _ = x * (2 ^ (f.precision - 1) + 1) := by ring

end Nearest

/-! ## Rounding twice -/

/-- A format that has all magnitudes of another one and the middles between them. -/
structure Finer (d f : BinaryFormat) : Prop where
  finest : d.finest < f.finest
  precision : f.precision < d.precision

/-- `h` lies halfway between two magnitudes, and `x` on the side of the odd one. -/
def Halfway (f : BinaryFormat) (x : ℚ) (h : Nat) : Prop :=
  ∃ a, f.OnGrid a ∧ 2 * h = a + f.next a ∧
    (x < h ∧ f.significand a % 2 = 1 ∨ (h : ℚ) < x ∧ f.significand a % 2 = 0)

/-- Halfway on the side of the odd magnitude, rounding again ends at the even one, which is not the
nearer. -/
theorem Halfway.not_nearest {h s : Nat} (hhalf : f.Halfway x h) (hp : 2 ≤ f.precision)
    (hs : f.Nearest h s) : ¬ f.Nearest x s := by
  intro hnear
  obtain ⟨a, ha, hmid, hside⟩ := hhalf
  have hmidQ : 2 * (h : ℚ) = a + f.next a := by exact_mod_cast hmid
  have hlt : (a : ℚ) < f.next a := by exact_mod_cast lt_next f a
  have hparity := significand_next_mod_two hp ha
  rcases hside with ⟨hx, hodd⟩ | ⟨hx, heven⟩
  · have hright : f.Nearest h (f.next a) :=
      nearest_right hp ha (by linarith) hmidQ.ge fun _ => by omega
    rw [hs.unique hp hright] at hnear
    have hle := hnear.le a ha
    rw [abs_of_nonpos (by linarith)] at hle
    rcases le_or_gt x a with hxa | hxa
    · rw [abs_of_nonpos (by linarith)] at hle
      linarith
    · rw [abs_of_pos (by linarith)] at hle
      linarith
  · have hleft : f.Nearest h a := nearest_left ha (by linarith) hmidQ.le fun _ => heven
    rw [hs.unique hp hleft] at hnear
    have hle := hnear.le _ (onGrid_next hp ha)
    rw [abs_of_nonneg (by linarith)] at hle
    rcases le_or_gt x (f.next a) with hxa | hxa
    · rw [abs_of_nonpos (by linarith)] at hle
      linarith
    · rw [abs_of_pos (by linarith)] at hle
      linarith

namespace Finer

variable {d : BinaryFormat} (hfine : d.Finer f)

include hfine

theorem onGrid (h : f.OnGrid u) : d.OnGrid u := by
  have := hfine.finest
  have := hfine.precision
  refine onGrid_of_dvd ?_ (onGrid_iff_dvd.1 h)
  unfold grid
  omega

theorem exists_middle (hp : 2 ≤ f.precision) (h : f.OnGrid u) :
    ∃ m, 2 * m = u + f.next u ∧ d.OnGrid m := by
  have hfinest := hfine.finest
  have hprecision := hfine.precision
  have hgrid : f.finest ≤ f.grid u := finest_le_grid f u
  obtain ⟨g, hg⟩ : ∃ g, f.grid u = g + 1 := ⟨f.grid u - 1, by omega⟩
  have hwidth : 2 ^ f.grid u = 2 * 2 ^ g := by rw [hg, Nat.pow_succ, Nat.mul_comm]
  refine ⟨u + 2 ^ g, by rw [next, hwidth]; omega, ?_⟩
  have hdvd : 2 ^ g ∣ u + 2 ^ g :=
    Nat.dvd_add ((Nat.pow_dvd_pow 2 (by omega)).trans (onGrid_iff_dvd.1 h)) (Nat.dvd_refl _)
  refine onGrid_of_dvd (grid_le_of_lt (by omega) (by omega) ?_) hdvd
  -- The middle is still less than the power of two where the next grid starts.
  have hpower : u + 2 ^ g < 2 ^ (f.grid u + f.precision) := by
    have hlt := lt_two_pow f u
    have hstep : 2 ^ f.grid u ≤ 2 ^ (f.grid u + f.precision) - u :=
      Nat.le_of_dvd (by omega)
        (Nat.dvd_sub (Nat.pow_dvd_pow 2 (Nat.le_add_right ..)) (onGrid_iff_dvd.1 h))
    have := Nat.two_pow_pos g
    omega
  exact hpower.trans_le (Nat.pow_le_pow_right (by decide) (by omega))

variable {h s : Nat}

/-- **Rounding to a finer format first** ends at the nearest magnitude all the same, unless it stops
halfway from the side of the odd one. -/
theorem nearest_iff_not_halfway (hp : 2 ≤ f.precision) (hx : 0 ≤ x) (hh : d.Nearest x h)
    (hs : f.Nearest h s) : f.Nearest x s ↔ ¬ f.Halfway x h := by
  refine ⟨fun hnear hhalf => hhalf.not_nearest hp hs hnear, fun hhalf => ?_⟩
  obtain ⟨a, ha, hax, hxa⟩ := exists_around hp hx
  obtain ⟨m, hm, hmd⟩ := hfine.exists_middle hp ha
  have hmQ : 2 * (m : ℚ) = a + f.next a := by exact_mod_cast hm
  have hparity := significand_next_mod_two hp ha
  -- The finer rounding stays between the magnitudes around `x`, and on the side of the middle on
  -- which `x` is.
  have hah : (a : ℚ) ≤ h := by exact_mod_cast hh.ge_of_ge (hfine.onGrid ha) hax
  have hha : (h : ℚ) ≤ f.next a := by
    exact_mod_cast hh.le_of_le (hfine.onGrid (onGrid_next hp ha)) hxa.le
  rcases lt_trichotomy x m with hlt | heq | hgt
  · have hhm : (h : ℚ) ≤ m := by exact_mod_cast hh.le_of_le hmd hlt.le
    have hleft : f.Nearest h a := nearest_left ha hah (by linarith) fun heq => by
      by_contra hodd
      refine hhalf ⟨a, ha, by exact_mod_cast heq, .inl ⟨by linarith, by omega⟩⟩
    rw [hs.unique hp hleft]
    exact nearest_left ha hax (by linarith) fun _ => by linarith
  · subst heq
    rwa [hh.eq_of_onGrid hmd] at hs
  · have hmh : (m : ℚ) ≤ h := by exact_mod_cast hh.ge_of_ge hmd hgt.le
    have hright : f.Nearest h (f.next a) := nearest_right hp ha hha (by linarith) fun heq => by
      by_contra hodd
      refine hhalf ⟨a, ha, by exact_mod_cast heq, .inr ⟨by linarith, by omega⟩⟩
    rw [hs.unique hp hright]
    exact nearest_right hp ha hxa.le (by linarith) fun _ => by linarith

end Finer

end BinaryFormat

end RecordFilter
