import Mathlib.Data.List.Forall2

/-!
# The first error along a list

Steps that can fail are taken one after the other, and the first failure is the outcome of them
all. What follows says of a list when all its steps succeed, with which results, and which error
comes out when some of them fail: the one of the first that does.
-/

namespace RecordFilter

variable {ε α β γ : Type}

/-! ## Two steps -/

theorem bind_eq_ok_iff {x : Except ε α} {f : α → Except ε β} {b : β} :
    (x >>= f) = .ok b ↔ ∃ a, x = .ok a ∧ f a = .ok b := by
  cases x <;> simp [bind, Except.bind]

theorem bind_eq_error_iff {x : Except ε α} {f : α → Except ε β} {e : ε} :
    (x >>= f) = .error e ↔ x = .error e ∨ ∃ a, x = .ok a ∧ f a = .error e := by
  cases x <;> simp [bind, Except.bind]

theorem map_eq_ok_iff {x : Except ε α} {f : α → β} {b : β} :
    x.map f = .ok b ↔ ∃ a, x = .ok a ∧ f a = b := by
  cases x <;> simp [Except.map]

theorem map_eq_error_iff {x : Except ε α} {f : α → β} {e : ε} :
    x.map f = .error e ↔ x = .error e := by
  cases x <;> simp [Except.map]

theorem not_ok_iff_error {x : Except ε α} : (¬ ∃ a, x = .ok a) ↔ ∃ e, x = .error e := by
  cases x <;> simp

/-- Two steps that succeed together, and of which the second takes over the errors of the first,
fail with the same errors. -/
theorem eq_error_iff_of_imp {x : Except ε α} {y : Except ε β} {e : ε}
    (hok : ∀ a, x = .ok a → ∃ b, y = .ok b) (herror : ∀ e, x = .error e → y = .error e) :
    y = .error e ↔ x = .error e := by
  cases x with
  | ok a =>
    obtain ⟨b, rfl⟩ := hok a rfl
    simp
  | error e' => rw [herror e' rfl, Except.error.injEq, Except.error.injEq]

/-- An outcome can be tried out by looking for a result with a property. -/
theorem exists_ok_of_any {x : Except ε α} {p : α → Bool} (h : x.toOption.any p = true) :
    ∃ a, x = .ok a ∧ p a = true := by
  cases x with
  | ok a => exact ⟨a, rfl, h⟩
  | error e => cases h

/-! ## All steps of a list -/

theorem mapM_eq_ok_iff {f : α → Except ε β} {l : List α} {bs : List β} :
    l.mapM f = .ok bs ↔ List.Forall₂ (fun a b => f a = .ok b) l bs := by
  induction l generalizing bs with
  | nil => cases bs <;> simp [pure, Except.pure]
  | cons a l ih =>
    rw [List.mapM_cons, bind_eq_ok_iff]
    constructor
    · rintro ⟨b, hb, h⟩
      obtain ⟨bs', hbs, h⟩ := bind_eq_ok_iff.1 h
      cases h
      exact .cons hb (ih.1 hbs)
    · rintro (_ | ⟨hb, hbs⟩)
      exact ⟨_, hb, bind_eq_ok_iff.2 ⟨_, ih.2 hbs, rfl⟩⟩

theorem exists_mapM_eq_ok_iff {f : α → Except ε β} {l : List α} :
    (∃ bs, l.mapM f = .ok bs) ↔ ∀ a ∈ l, ∃ b, f a = .ok b := by
  simp only [mapM_eq_ok_iff]
  induction l with
  | nil => simp
  | cons a l ih =>
    rw [List.forall_mem_cons, ← ih]
    constructor
    · rintro ⟨_, _ | ⟨hb, hbs⟩⟩
      exact ⟨⟨_, hb⟩, _, hbs⟩
    · rintro ⟨⟨b, hb⟩, bs, hbs⟩
      exact ⟨b :: bs, .cons hb hbs⟩

/-- Two steps for each element succeed when the first ones do and then the second ones do. -/
theorem mapM_bind_eq_ok {f : α → Except ε β} {g : β → Except ε γ} {l : List α} {cs : List γ}
    (h : (l.mapM fun a => f a >>= g) = .ok cs) :
    ∃ bs, l.mapM f = .ok bs ∧ bs.mapM g = .ok cs := by
  simp only [mapM_eq_ok_iff] at h ⊢
  induction h with
  | nil => exact ⟨[], .nil, .nil⟩
  | cons hc _ ih =>
    obtain ⟨b, hb, hg⟩ := bind_eq_ok_iff.1 hc
    obtain ⟨bs, hbs, hgs⟩ := ih
    exact ⟨b :: bs, .cons hb hbs, .cons hg hgs⟩

/-- The first failure along a list is the outcome. -/
theorem mapM_eq_error_of_first {f : α → Except ε β} {before after : List α} {a : α} {e : ε}
    (hb : ∀ x ∈ before, ∃ b, f x = .ok b) (ha : f a = .error e) :
    (before ++ a :: after).mapM f = .error e := by
  obtain ⟨bs, hbs⟩ := exists_mapM_eq_ok_iff.2 hb
  rw [List.mapM_append, hbs, List.mapM_cons, ha]
  rfl

theorem forM_eq_ok_iff {f : α → Except ε Unit} {l : List α} :
    l.forM f = .ok () ↔ ∀ a ∈ l, f a = .ok () := by
  induction l with
  | nil => simp [pure, Except.pure]
  | cons a l ih =>
    rw [List.forM_eq_forM, List.forM_cons, bind_eq_ok_iff, List.forall_mem_cons, ← ih]
    exact ⟨fun ⟨_, h⟩ => h, fun h => ⟨(), h⟩⟩

theorem forM_eq_error_of_first {f : α → Except ε Unit} {before after : List α} {a : α} {e : ε}
    (hb : ∀ x ∈ before, f x = .ok ()) (ha : f a = .error e) :
    (before ++ a :: after).forM f = .error e := by
  rw [List.forM_eq_forM, List.forM_append, ← List.forM_eq_forM, forM_eq_ok_iff.2 hb]
  show (f a >>= fun _ => after.forM f) = _
  rw [ha]
  rfl

/-- What is related to the elements of a list, one by one, is related to some element each. -/
theorem exists_left_of_forall₂ {R : α → β → Prop} {as : List α} {bs : List β}
    (h : List.Forall₂ R as bs) {b : β} (hb : b ∈ bs) : ∃ a ∈ as, R a b := by
  induction h with
  | nil => cases hb
  | cons hab _ ih =>
    rcases List.mem_cons.1 hb with rfl | hb
    · exact ⟨_, List.mem_cons_self, hab⟩
    · obtain ⟨a, ha, hr⟩ := ih hb
      exact ⟨a, List.mem_cons_of_mem _ ha, hr⟩

/-! ## The first element with a property -/

/-- A list with an element that has a property can be cut in front of the first one. -/
theorem exists_first {p : α → Prop} {l : List α} (h : ∃ a ∈ l, p a) :
    ∃ before a after, l = before ++ a :: after ∧ (∀ x ∈ before, ¬ p x) ∧ p a := by
  classical
  obtain ⟨a, ha⟩ : ∃ a, l.find? (fun a => decide (p a)) = some a := by
    rw [← Option.isSome_iff_exists, List.find?_isSome]
    simpa using h
  obtain ⟨hp, before, after, rfl, hb⟩ := List.find?_eq_some_iff_append.1 ha
  exact ⟨before, a, after, rfl, by simpa using hb, by simpa using hp⟩

end RecordFilter
