import RecordFilter.Compilation
import RecordFilter.Proofs.FirstError
import RecordFilter.Samples

/-!
# Matches are kept when collections grow

Collections are read existentially: a condition can ask for an element, but never that there be
none, and no test looks inside a list. One value is covered by another when the two differ in
nothing but their lists, and every element of a list is covered by some element of the list in its
place.

`compile_mono`: a request that is true of a value is true of every value that covers it. So adding
elements to a collection never loses a match, and neither their order nor their number matters.
-/

namespace RecordFilter

variable {ρ : Type}

namespace Value

mutual

/-- The second value has all that the first one has, and more only in its lists. Whatever is no
list and no record is the same in both. -/
inductive Covered : Value → Value → Prop
  | same (v : Value) : Covered v v
  | record {as bs : List (String × Value)}
      (h : ∀ name, Covered ((Value.record as).get name) ((Value.record bs).get name)) :
    Covered (.record as) (.record bs)
  | list {xs ys : List Value} (h : ∀ x ∈ xs, CoveredBySome x ys) : Covered (.list xs) (.list ys)

/-- Some value of a list covers a value. -/
inductive CoveredBySome : Value → List Value → Prop
  | intro {x y : Value} {ys : List Value} (hy : y ∈ ys) (h : Covered x y) : CoveredBySome x ys

end

theorem coveredBySome_iff {x : Value} {ys : List Value} :
    CoveredBySome x ys ↔ ∃ y ∈ ys, Covered x y :=
  ⟨fun ⟨hy, h⟩ => ⟨_, hy, h⟩, fun ⟨_, hy, h⟩ => .intro hy h⟩

theorem Covered.get {v w : Value} (h : Covered v w) (name : String) :
    Covered (v.get name) (w.get name) := by
  cases h with
  | same => exact .same _
  | record h => exact h name
  | list => exact .same _

theorem Covered.walk {v w : Value} (h : Covered v w) (chain : List String) :
    Covered (v.walk chain) (w.walk chain) := by
  induction chain generalizing v w with
  | nil => exact h
  | cons name chain ih => exact ih (h.get name)

/-! ## Conditions on covered values -/

end Value

/-- No test tells a value from one that covers it, since none looks into records or lists. -/
theorem ValueTest.passes_of_covered {v w : Value} (h : v.Covered w) (t : ValueTest) :
    t.passes v = t.passes w := by
  cases h with
  | same => rfl
  | record => cases t <;> rfl
  | list => cases t <;> rfl

theorem Combinator.apply_mono (c : Combinator) {a b a' b' : Bool} (ha : a = true → a' = true)
    (hb : b = true → b' = true) (h : c.apply a b = true) : c.apply a' b' = true := by
  cases c with
  | and =>
    rw [apply_and, Bool.and_eq_true] at h ⊢
    exact ⟨ha h.1, hb h.2⟩
  | or =>
    rw [apply_or, Bool.or_eq_true] at h ⊢
    exact h.imp ha hb

/-- A condition that holds of a value holds of every value that covers it. -/
theorem Condition.holds_of_covered {v w : Value} (h : v.Covered w) {condition : Condition}
    (hv : condition.holds v = true) : condition.holds w = true := by
  induction condition generalizing v w with
  | always => rfl
  | test chain t =>
    rw [holds, ← t.passes_of_covered (h.walk chain)]
    exact hv
  | someElement chain inner ih =>
    have hwalk := h.walk chain
    rw [holds] at hv ⊢
    generalize v.walk chain = c at hv hwalk
    generalize w.walk chain = d at hwalk ⊢
    cases hwalk with
    | same => exact hv
    | record => cases hv
    | list hitems =>
      -- The element that was found is covered by one that will be found.
      obtain ⟨x, hx, hholds⟩ := List.any_eq_true.1 hv
      obtain ⟨y, hy, hxy⟩ := Value.coveredBySome_iff.1 (hitems x hx)
      exact List.any_eq_true.2 ⟨y, hy, ih hxy hholds⟩
  | join combinator before next ihb ihn =>
    exact combinator.apply_mono (ihb h) (ihn h) hv

/-! ## Changed lists -/

namespace Value

/-- Somewhere in a value, one list is replaced by another in a given way. -/
inductive Edited (change : List Value → List Value → Prop) : Value → Value → Prop
  | list {xs ys : List Value} (h : change xs ys) : Edited change (.list xs) (.list ys)
  | item {v w : Value} (before after : List Value) (h : Edited change v w) :
    Edited change (.list (before ++ v :: after)) (.list (before ++ w :: after))
  | field {v w : Value} (before after : List (String × Value)) (name : String)
      (h : Edited change v w) :
    Edited change (.record (before ++ (name, v) :: after)) (.record (before ++ (name, w) :: after))

theorem Edited.symm {change : List Value → List Value → Prop} {v w : Value}
    (h : Edited change v w) : Edited (fun xs ys => change ys xs) w v := by
  induction h with
  | list h => exact .list h
  | item before after _ ih => exact .item before after ih
  | field before after name _ ih => exact .field before after name ih

theorem get_record_append_cons (before after : List (String × Value)) (name other : String)
    (v : Value) :
    (record (before ++ (name, v) :: after)).get other =
      ((before.lookup other).or
        (if other = name then some v else after.lookup other)).getD null := by
  show ((before ++ (name, v) :: after).lookup other).getD null = _
  rw [List.lookup_append, List.lookup_cons]
  by_cases h : other = name
  · simp [h]
  · rw [if_neg h, beq_false_of_ne h]

/-- A value is covered by what it becomes when a list in it takes on more elements. -/
theorem Edited.covered {change : List Value → List Value → Prop} {v w : Value}
    (h : Edited change v w) (hchange : ∀ xs ys, change xs ys → xs ⊆ ys) : Covered v w := by
  induction h with
  | list h => exact .list fun x hx => .intro (hchange _ _ h hx) (.same x)
  | @item v w before after _ ih =>
    refine .list fun x hx => ?_
    rcases List.mem_append.1 hx with hx | hx
    · exact .intro (List.mem_append_left _ hx) (.same x)
    · rcases List.mem_cons.1 hx with rfl | hx
      · exact .intro (List.mem_append_right _ List.mem_cons_self) ih
      · exact .intro (List.mem_append_right _ (List.mem_cons_of_mem _ hx)) (.same x)
  | @field v w before after name _ ih =>
    refine .record fun other => ?_
    rw [get_record_append_cons, get_record_append_cons]
    by_cases hname : other = name
    · rw [if_pos hname, if_pos hname]
      cases before.lookup other with
      | none => exact ih
      | some u => exact .same u
    · rw [if_neg hname, if_neg hname]
      exact .same _

end Value

/-! ## Requests -/

/-- **Matches are kept.** What a compiled request is true of, it is true of with any list grown;
and lists with the same elements, in whatever order and number, make no difference. -/
theorem compile_mono {catalog : Catalog ρ} {root : ρ} {limits : Limits} {request : Request}
    {condition : Condition} : request.compile catalog root limits = .ok condition →
    (∀ v w, Value.Covered v w → condition.holds v = true → condition.holds w = true) ∧
    (∀ v w, Value.Edited (· ⊆ ·) v w → condition.holds v = true → condition.holds w = true) ∧
    (∀ v w, Value.Edited (fun xs ys => ∀ x, x ∈ xs ↔ x ∈ ys) v w →
      condition.holds v = condition.holds w) := by
  intro _
  refine ⟨fun v w h => condition.holds_of_covered h, fun v w h => ?_, fun v w h => ?_⟩
  · exact condition.holds_of_covered (h.covered fun _ _ hsub => hsub)
  · have hvw := h.covered fun xs ys hmem x hx => (hmem x).1 hx
    have hwv := h.symm.covered fun xs ys hmem x hx => (hmem x).2 hx
    exact Bool.eq_iff_iff.2 ⟨Condition.holds_of_covered hvw, Condition.holds_of_covered hwv⟩

/-- A customer who is not tagged `vip` stays one among more tags, that one included. -/
theorem compile_mono_tags :
    ∃ condition, (Request.mk [⟨[⟨.ofText "tags", .notEqual, .str "vip", .and⟩,
        ⟨.ofText "address", .equal, .null, .and⟩], .and⟩]).compile Sample.catalog .customer
          .standard = .ok condition ∧
      condition.holds (.record [("tags", .list [.str "new"])]) = true ∧
      condition.holds (.record [("tags", .list [.str "VIP", .str "new"])]) = true := by
  obtain ⟨condition, h, hv⟩ := exists_ok_of_any
    (show ((Request.mk [⟨[⟨.ofText "tags", .notEqual, .str "vip", .and⟩,
        ⟨.ofText "address", .equal, .null, .and⟩], .and⟩]).compile Sample.catalog .customer
          .standard).toOption.any (·.holds (.record [("tags", .list [.str "new"])])) = true by
      decide +kernel)
  refine ⟨condition, h, hv, (compile_mono h).2.1 _ _ ?_ hv⟩
  exact .field [] [] "tags" (.list (List.subset_cons_self _ _))

end RecordFilter
