import Mathlib.Data.List.Forall2
import RecordFilter.Proofs.Blocks
import RecordFilter.Samples

/-!
# Two compilations compared

Two runs of the same fallible steps are compared step by step: where the first one succeeds the
second one does, with a related result, and where the first one fails the second one does, with a
related error. Some errors of the first run may be excused from this. Since every step of compiling
a request is such a step, two compilations compare as soon as the resolving of corresponding paths
does (`Request.compile_follows`).

`compile_of_wider_limits`: with wider limits a request has the same outcome, unless the narrower
ones were exceeded.
-/

namespace RecordFilter

/-! ## Runs that follow each other -/

/-- The second run follows the first one: it has a related result or fails with a related error,
unless the first one fails with an error that is excused. -/
inductive Follows {ε α β : Type} (Excused : ε → Prop) (E : ε → ε → Prop) (R : α → β → Prop) :
    Except ε α → Except ε β → Prop
  | ok {a : α} {b : β} (h : R a b) : Follows Excused E R (.ok a) (.ok b)
  | error {e f : ε} (h : E e f) : Follows Excused E R (.error e) (.error f)
  | excused {e : ε} (h : Excused e) (y : Except ε β) : Follows Excused E R (.error e) y

namespace Follows

variable {ε α β γ δ : Type} {Excused : ε → Prop} {E : ε → ε → Prop} {R : α → β → Prop}
  {S : γ → δ → Prop}

/-- A run follows itself. -/
theorem refl {R : α → α → Prop} (hE : ∀ e, E e e) (hR : ∀ a, R a a) (x : Except ε α) :
    Follows Excused E R x x := by
  cases x with
  | ok a => exact .ok (hR a)
  | error e => exact .error (hE e)

theorem bind {x : Except ε α} {y : Except ε β} {f : α → Except ε γ} {g : β → Except ε δ}
    (h : Follows Excused E R x y) (hf : ∀ a b, R a b → Follows Excused E S (f a) (g b)) :
    Follows Excused E S (x >>= f) (y >>= g) := by
  cases h with
  | ok hab => exact hf _ _ hab
  | error he => exact .error he
  | excused he => exact .excused he _

theorem map {x : Except ε α} {y : Except ε β} {f : α → γ} {g : β → δ}
    (h : Follows Excused E R x y) (hf : ∀ a b, R a b → S (f a) (g b)) :
    Follows Excused E S (x.map f) (y.map g) := by
  cases h with
  | ok hab => exact .ok (hf _ _ hab)
  | error he => exact .error he
  | excused he => exact .excused he _

/-- Along two lists, the runs follow each other when they do for corresponding elements. -/
theorem mapM {f : α → Except ε γ} {g : β → Except ε δ} {as : List α} {bs : List β}
    (h : List.Forall₂ (fun a b => Follows Excused E S (f a) (g b)) as bs) :
    Follows Excused E (List.Forall₂ S) (as.mapM f) (bs.mapM g) := by
  induction h with
  | nil => exact .ok .nil
  | cons hab _ ih =>
    rw [List.mapM_cons, List.mapM_cons]
    refine hab.bind fun c d hcd => ?_
    refine ih.bind fun cs ds hrest => ?_
    exact .ok (.cons hcd hrest)

/-- Where no error is excused, both runs succeed or both fail. -/
theorem ok_or_error {x : Except ε α} {y : Except ε β}
    (h : Follows (fun _ => False) E R x y) :
    (∃ a b, x = .ok a ∧ y = .ok b ∧ R a b) ∨ ∃ e f, x = .error e ∧ y = .error f ∧ E e f := by
  cases h with
  | ok hab => exact .inl ⟨_, _, rfl, rfl, hab⟩
  | error he => exact .inr ⟨_, _, rfl, rfl, he⟩
  | excused he => exact he.elim

/-- A run that is followed to the letter has the same outcome, unless its error is excused. -/
theorem eq_of_not_excused {x y : Except ε α} (h : Follows Excused (· = ·) (· = ·) x y)
    (hx : ∀ e, x = .error e → ¬ Excused e) : y = x := by
  cases h with
  | ok hab => rw [hab]
  | error he => rw [he]
  | excused he => exact absurd he (hx _ rfl)

end Follows

/-! ## Requests that differ in their paths -/

/-- Two clauses are the same but for their paths, which are related. -/
structure Clause.SameBut (P : Path → Path → Prop) (c d : Clause) : Prop where
  path : P c.path d.path
  operator : c.operator = d.operator
  literal : c.literal = d.literal
  combinator : c.combinator = d.combinator

/-- Two groups are the same but for the paths of their clauses. -/
structure Group.SameBut (P : Path → Path → Prop) (g g' : Group) : Prop where
  clauses : List.Forall₂ (Clause.SameBut P) g.clauses g'.clauses
  combinator : g.combinator = g'.combinator

/-- Two requests are the same but for the paths of their clauses. -/
def Request.SameBut (P : Path → Path → Prop) (x y : Request) : Prop :=
  List.Forall₂ (Group.SameBut P) x.groups y.groups

variable {P : Path → Path → Prop}

theorem Group.SameBut.isEmpty_eq {g g' : Group} (h : g.SameBut P g') :
    g.isEmpty = g'.isEmpty := by
  have hlength := h.clauses.length_eq
  rw [Bool.eq_iff_iff, isEmpty, isEmpty, List.isEmpty_iff_length_eq_zero,
    List.isEmpty_iff_length_eq_zero, hlength]

theorem Request.SameBut.refl (hP : ∀ p, P p p) (x : Request) : x.SameBut P x :=
  List.forall₂_same.2 fun _ _ => ⟨List.forall₂_same.2 fun c _ => ⟨hP c.path, rfl, rfl, rfl⟩, rfl⟩

theorem Request.SameBut.clauseCount_eq {x y : Request} (h : x.SameBut P y) :
    x.clauseCount = y.clauseCount := by
  unfold SameBut at h
  unfold clauseCount
  generalize x.groups = gs at h ⊢
  generalize y.groups = gs' at h ⊢
  induction h with
  | nil => rfl
  | cons hg _ ih => rw [List.foldr_cons, List.foldr_cons, ih, hg.clauses.length_eq]

theorem Request.SameBut.filledGroups {x y : Request} (h : x.SameBut P y) :
    List.Forall₂ (Group.SameBut P) x.filledGroups y.filledGroups :=
  List.rel_filter (fun _ _ hg => by simp only [hg.isEmpty_eq]) h

/-! ## Compiling them -/

variable {ρ : Type} {catalog : Catalog ρ} {root : ρ}

/-- Two clauses are placed alike when their paths have been resolved to the same. -/
def PlacedAlike (P : Path → Path → Prop) (p q : Placed ρ) : Prop :=
  p.1.SameBut P q.1 ∧ p.2 = q.2

/-- Clauses that are placed alike make the same blocks. -/
theorem Block.ofClauses_congr {ps qs : List (Placed ρ)}
    (h : List.Forall₂ (PlacedAlike P) ps qs) : ofClauses ps = ofClauses qs := by
  induction h with
  | nil => rfl
  | cons hpq _ ih =>
    obtain ⟨hclause, hresolved⟩ := hpq
    rw [ofClauses_cons, ofClauses_cons, ih, hclause.combinator, hclause.operator, hclause.literal,
      hresolved]

section Compiling

variable {Excused : FilterError → Prop} {E : FilterError → FilterError → Prop}
  {maxDepth maxDepth' : Nat}

/-- Groups are placed alike when corresponding paths resolve alike. -/
theorem Group.place_follows {g g' : Group}
    (hP : ∀ p q, P p q → Follows Excused E (· = ·) (catalog.resolve maxDepth (.record root) p)
      (catalog.resolve maxDepth' (.record root) q)) (h : g.SameBut P g') :
    Follows Excused E (List.Forall₂ (PlacedAlike P)) (g.place catalog root maxDepth)
      (g'.place catalog root maxDepth') := by
  refine Follows.mapM (h.clauses.imp fun c d hcd => ?_)
  refine (hP _ _ hcd.path).map fun r s hrs => ?_
  exact ⟨hcd, hrs⟩

theorem Group.compile_follows {g g' : Group} (hE : ∀ e, E e e)
    (hP : ∀ p q, P p q → Follows Excused E (· = ·) (catalog.resolve maxDepth (.record root) p)
      (catalog.resolve maxDepth' (.record root) q)) (h : g.SameBut P g') :
    Follows Excused E (· = ·) (g.compile catalog root maxDepth)
      (g'.compile catalog root maxDepth') := by
  rw [compile_eq, compile_eq]
  refine (place_follows hP h).bind fun ps qs hpqs => ?_
  rw [Block.ofClauses_congr hpqs]
  exact .refl hE (fun _ => rfl) _

/-- Requests that are not too long compile alike when corresponding paths resolve alike. -/
theorem Request.compile_follows {x y : Request} {limits limits' : Limits} (hE : ∀ e, E e e)
    (hP : ∀ p q, P p q →
      Follows Excused E (· = ·) (catalog.resolve limits.maxPathDepth (.record root) p)
        (catalog.resolve limits'.maxPathDepth (.record root) q)) (hxy : x.SameBut P y)
    (hx : x.clauseCount ≤ limits.maxClauses) (hy : y.clauseCount ≤ limits'.maxClauses) :
    Follows Excused E (· = ·) (x.compile catalog root limits)
      (y.compile catalog root limits') := by
  rw [compile_of_le hx, compile_of_le hy]
  have hgroups : Follows Excused E (List.Forall₂ (· = ·))
      (x.filledGroups.mapM fun g =>
        (g.compile catalog root limits.maxPathDepth).map fun c => (g.combinator, c))
      (y.filledGroups.mapM fun g =>
        (g.compile catalog root limits'.maxPathDepth).map fun c => (g.combinator, c)) := by
    refine Follows.mapM (hxy.filledGroups.imp fun g g' hg => ?_)
    refine (Group.compile_follows hE hP hg).map fun c d hcd => ?_
    rw [hcd, hg.combinator]
  refine hgroups.map fun cs ds hcds => ?_
  rw [List.forall₂_eq_eq_eq] at hcds
  rw [hcds]

end Compiling

/-! ## Wider limits -/

/-- Whether the error is that a limit is exceeded. -/
def FilterError.IsLimit (e : FilterError) : Prop := ∃ what limit, e = .limitExceeded what limit

/-- With more depth a path resolves to the same, unless it was too long. -/
theorem Catalog.resolve_follows {maxDepth deeper : Nat} (h : maxDepth ≤ deeper)
    (type : FieldType ρ) (path : Path) :
    Follows FilterError.IsLimit (· = ·) (· = ·) (catalog.resolve maxDepth type path)
      (catalog.resolve deeper type path) := by
  unfold resolve
  cases path.validate (type.name catalog) with
  | error e => exact .error rfl
  | ok u =>
    show Follows _ _ _ (if maxDepth < path.length then _ else _)
      (if deeper < path.length then _ else _)
    by_cases hlong : maxDepth < path.length
    · rw [if_pos hlong]
      exact .excused ⟨_, _, rfl⟩ _
    · rw [if_neg hlong, if_neg (by omega)]
      exact .refl (fun _ => rfl) (fun _ => rfl) _

/-- **Limits only ever turn an outcome into their own error.** A request that does not exceed its
limits has the same outcome, be it a condition or an error, with any limits that are as wide. -/
theorem compile_of_wider_limits {limits wider : Limits} {request : Request}
    (hdepth : limits.maxPathDepth ≤ wider.maxPathDepth)
    (hclauses : limits.maxClauses ≤ wider.maxClauses)
    (h : ∀ what limit,
      request.compile catalog root limits ≠ .error (.limitExceeded what limit)) :
    request.compile catalog root wider = request.compile catalog root limits := by
  have hle : request.clauseCount ≤ limits.maxClauses := by
    by_contra hlt
    exact h _ _ (Request.compile_of_lt (Nat.not_le.1 hlt))
  have hfollows : Follows FilterError.IsLimit (· = ·) (· = ·)
      (request.compile catalog root limits) (request.compile catalog root wider) := by
    refine Request.compile_follows (P := (· = ·)) (fun _ => rfl) ?_ (.refl (fun _ => rfl) request)
      hle (hle.trans hclauses)
    rintro p _ rfl
    exact Catalog.resolve_follows hdepth _ p
  refine hfollows.eq_of_not_excused ?_
  rintro e he ⟨what, limit, rfl⟩
  exact h what limit he

/-- Ages that contain a three, or items of a name, which are two steps further in. -/
def deepRequest : Request where
  groups := [
    ⟨[⟨.ofText "name", .equal, .str "Ada", .and⟩,
      ⟨.ofText "Age", .contains, .str "3", .and⟩], .and⟩,
    ⟨[⟨.ofText "orders.items.sku", .equal, .str "LAMP-1", .and⟩], .or⟩]

/-- The age is refused before the items are found to be too deep, and so it is with any depth. -/
theorem compile_of_wider_limits_deepRequest :
    deepRequest.compile Sample.catalog .customer ⟨2, 3⟩ =
        .error (.unsupportedOperator .contains "i32") ∧
      deepRequest.compile Sample.catalog .customer .standard =
        .error (.unsupportedOperator .contains "i32") := by
  have h : deepRequest.compile Sample.catalog .customer ⟨2, 3⟩ =
      .error (.unsupportedOperator .contains "i32") := by
    rw [← map_eq_error_iff (f := fun _ => ())]
    decide +kernel
  refine ⟨h, (compile_of_wider_limits (by decide) (by decide) fun what limit => ?_).trans h⟩
  rw [h]
  simp

end RecordFilter
