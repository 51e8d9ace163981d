import Mathlib.Data.List.SplitBy
import Mathlib.Data.List.Forall2
import RecordFilter.Compilation

/-!
# Runs of clauses

Clauses with resolved paths fall into runs: neighbours whose paths go through the same collection
first belong to one run, and every other clause is a run of its own. Inside a run, each path can be
followed on from the elements of that collection, and the clauses fall into runs once more.

`forall₂_ofClauses`: the blocks that clauses are inserted into one by one are exactly these runs,
and the blocks inside a shared block are those of its run, followed on from the elements.
-/

namespace RecordFilter

variable {ρ : Type}

namespace Resolved

/-- Whether two paths go through the same collection first. -/
def sameCollection : Resolved ρ → Resolved ρ → Bool
  | within chain _ _, within chain' _ _ => chain == chain'
  | _, _ => false

/-- The path from the elements of its first collection on. -/
def inside : Resolved ρ → Resolved ρ
  | leaf chain type => leaf chain type
  | within _ _ inner => inner

@[simp] theorem inside_within (chain : List String) (element : FieldType ρ) (inner : Resolved ρ) :
    (within chain element inner).inside = inner := rfl

@[simp] theorem leafType_inside (r : Resolved ρ) : r.inside.leafType = r.leafType := by
  cases r <;> rfl

theorem depth_inside_le (r : Resolved ρ) : r.inside.depth ≤ r.depth := by
  cases r with
  | leaf chain type => exact Nat.le_refl _
  | within chain element inner => exact Nat.le_succ _

end Resolved

/-- A clause with its path resolved. -/
abbrev Placed (ρ : Type) := Clause × Resolved ρ

/-- The longest stretches of clauses that go through the same collection first. -/
def runs (clauses : List (Placed ρ)) : List (List (Placed ρ)) :=
  clauses.splitBy fun p q => p.2.sameCollection q.2

/-- The clauses of a run, with what is left of their paths in the elements. -/
def enter (run : List (Placed ρ)) : List (Placed ρ) := run.map fun p => (p.1, p.2.inside)

/-- The collections that clauses go through, each counted once for every clause. -/
def layers (clauses : List (Placed ρ)) : Nat := clauses.foldr (fun p n => p.2.depth + n) 0

@[simp] theorem enter_cons (p : Placed ρ) (run : List (Placed ρ)) :
    enter (p :: run) = (p.1, p.2.inside) :: enter run := rfl

@[simp] theorem layers_cons (p : Placed ρ) (clauses : List (Placed ρ)) :
    layers (p :: clauses) = p.2.depth + layers clauses := rfl

@[simp] theorem runs_singleton (p : Placed ρ) : runs [p] = [[p]] := rfl

/-! ## What runs consist of -/

theorem flatten_runs (clauses : List (Placed ρ)) : (runs clauses).flatten = clauses :=
  List.flatten_splitBy _ _

theorem mem_of_mem_runs {clauses run : List (Placed ρ)} (h : run ∈ runs clauses) {p : Placed ρ}
    (hp : p ∈ run) : p ∈ clauses := by
  rw [← flatten_runs clauses]
  exact List.mem_flatten_of_mem h hp

theorem exists_run_of_mem {clauses : List (Placed ρ)} {p : Placed ρ} (h : p ∈ clauses) :
    ∃ run ∈ runs clauses, p ∈ run := by
  rw [← flatten_runs clauses] at h
  exact List.mem_flatten.1 h

theorem mem_enter {run : List (Placed ρ)} {p : Placed ρ} :
    p ∈ enter run ↔ ∃ q ∈ run, (q.1, q.2.inside) = p := List.mem_map

/-- A run begins where the clauses begin. -/
theorem head?_of_runs_eq_cons {p : Placed ρ} {clauses run : List (Placed ρ)}
    {rest : List (List (Placed ρ))} (h : runs (p :: clauses) = run :: rest) :
    run.head? = some p := by
  have hne : run ≠ [] := List.ne_nil_of_mem_splitBy (show run ∈ runs (p :: clauses) by simp [h])
  obtain ⟨q, run, rfl⟩ := List.exists_cons_of_ne_nil hne
  have hf := flatten_runs (p :: clauses)
  rw [h, List.flatten_cons, List.cons_append, List.cons.injEq] at hf
  rw [hf.1, List.head?_cons]

/-- A clause that does not go with the next one is a run of its own. -/
theorem runs_cons_of_not {p : Placed ρ} {clauses : List (Placed ρ)}
    (h : ∀ q ∈ clauses.head?, p.2.sameCollection q.2 = false) :
    runs (p :: clauses) = [p] :: runs clauses := by
  refine List.splitBy_append (l := [p]) fun x hx q hq => ?_
  cases hx
  exact h q hq

/-- A clause that goes with the next one extends its run. -/
theorem runs_cons_of_same {p q : Placed ρ} {clauses run : List (Placed ρ)}
    {rest : List (List (Placed ρ))} (hpq : p.2.sameCollection q.2 = true)
    (h : runs (q :: clauses) = run :: rest) :
    runs (p :: q :: clauses) = (p :: run) :: rest := by
  obtain ⟨run, rfl⟩ : ∃ run', run = q :: run' := by
    cases run with
    | nil => cases head?_of_runs_eq_cons h
    | cons q' run => cases head?_of_runs_eq_cons h; exact ⟨run, rfl⟩
  obtain ⟨hf, hne, hchain, hbreak⟩ := List.splitBy_eq_iff.1 h
  refine List.splitBy_eq_iff.2 ⟨?_, ?_, ?_, ?_⟩
  · rw [hf]; rfl
  · simpa using hne
  · rw [List.forall_mem_cons] at hchain ⊢
    exact ⟨List.isChain_cons_cons.2 ⟨hpq, hchain.1⟩, hchain.2⟩
  · cases rest with
    | nil => exact List.isChain_singleton _
    | cons next rest =>
      rw [List.isChain_cons_cons] at hbreak ⊢
      obtain ⟨⟨_, hn, hb⟩, hrest⟩ := hbreak
      exact ⟨⟨List.cons_ne_nil _ _, hn, by simpa using hb⟩, hrest⟩

theorem exists_within_of_isChain {c : Clause} {chain : List String} {element : FieldType ρ}
    {inner : Resolved ρ} {run : List (Placed ρ)}
    (h : ((c, .within chain element inner) :: run).IsChain fun p q =>
      p.2.sameCollection q.2 = true) :
    ∀ p ∈ run, ∃ element inner, p.2 = .within chain element inner := by
  induction run generalizing c element inner with
  | nil => simp
  | cons q run ih =>
    obtain ⟨hsame, hrest⟩ := List.isChain_cons_cons.1 h
    obtain ⟨c', r⟩ := q
    cases r with
    | leaf chain' type => cases hsame
    | within chain' element' inner' =>
      have hchain : chain = chain' := by simpa [Resolved.sameCollection] using hsame
      subst hchain
      exact List.forall_mem_cons.2 ⟨⟨element', inner', rfl⟩, ih hrest⟩

/-- The clauses of a run all go through the collection that the first of them goes through. -/
theorem exists_within_of_mem_run {clauses run : List (Placed ρ)} {c : Clause}
    {chain : List String} {element : FieldType ρ} {inner : Resolved ρ}
    (h : (c, .within chain element inner) :: run ∈ runs clauses) :
    ∀ p ∈ (c, Resolved.within chain element inner) :: run,
      ∃ element inner, p.2 = .within chain element inner :=
  List.forall_mem_cons.2 ⟨⟨element, inner, rfl⟩,
    exists_within_of_isChain (List.isChain_of_mem_splitBy h)⟩

/-! ## Measures -/

theorem layers_append (before after : List (Placed ρ)) :
    layers (before ++ after) = layers before + layers after := by
  induction before with
  | nil => exact (Nat.zero_add _).symm
  | cons p before ih => rw [List.cons_append, layers_cons, layers_cons, ih, Nat.add_assoc]

theorem layers_le_of_mem_runs {clauses run : List (Placed ρ)} (h : run ∈ runs clauses) :
    layers run ≤ layers clauses := by
  obtain ⟨before, after, hr⟩ := List.append_of_mem h
  have hf := flatten_runs clauses
  rw [hr, List.flatten_append, List.flatten_cons] at hf
  rw [← hf, layers_append, layers_append]
  omega

theorem layers_enter_le (run : List (Placed ρ)) : layers (enter run) ≤ layers run := by
  induction run with
  | nil => exact Nat.le_refl _
  | cons p run ih => exact Nat.add_le_add p.2.depth_inside_le ih

theorem layers_enter_lt (c : Clause) (chain : List String) (element : FieldType ρ)
    (inner : Resolved ρ) (run : List (Placed ρ)) :
    layers (enter ((c, .within chain element inner) :: run)) <
      layers ((c, .within chain element inner) :: run) := by
  have := layers_enter_le run
  simp only [enter_cons, layers_cons, Resolved.inside_within, Resolved.depth]
  omega

/-! ## Blocks are runs -/

namespace Block

@[simp] theorem ofClauses_nil : ofClauses ([] : List (Placed ρ)) = [] := rfl

@[simp] theorem ofClauses_cons (p : Placed ρ) (clauses : List (Placed ρ)) :
    ofClauses (p :: clauses) =
      insert p.1.combinator p.1.operator p.1.literal p.2 (ofClauses clauses) := rfl

/-- A clause goes into the first block if that goes through the same collection. -/
theorem insert_within_same (combinator next : Combinator) (operator : Operator)
    (literal : Literal) (chain : List String) (element : FieldType ρ) (inner : Resolved ρ)
    (members blocks : List (Block ρ)) :
    insert combinator operator literal (.within chain element inner)
        (.shared next chain members :: blocks) =
      .shared combinator chain (insert combinator operator literal inner members) :: blocks := by
  rw [insert, if_pos rfl]

/-- A clause becomes a block of its own if the first block goes through another collection. -/
theorem insert_within_other (combinator : Combinator) (operator : Operator) (literal : Literal)
    {chain : List String} (element : FieldType ρ) (inner : Resolved ρ) {blocks : List (Block ρ)}
    (h : ∀ next members rest, blocks ≠ .shared next chain members :: rest) :
    insert combinator operator literal (.within chain element inner) blocks =
      .shared combinator chain (insert combinator operator literal inner []) :: blocks := by
  cases blocks with
  | nil => rfl
  | cons block blocks =>
    cases block with
    | direct => rfl
    | shared next chain' members =>
      have hne : chain ≠ chain' := fun hc => h next members blocks (by rw [hc])
      rw [insert, if_neg hne]

/-- A block stands for a run: for a direct clause, or for clauses that go through one collection,
joined as the first of them is. -/
inductive OfRun : List (Placed ρ) → Block ρ → Prop
  | direct (c : Clause) (chain : List String) (type : FieldType ρ) :
    OfRun [(c, .leaf chain type)] (.direct c.combinator chain type c.operator c.literal)
  | shared (c : Clause) (chain : List String) (element : FieldType ρ) (inner : Resolved ρ)
      (run : List (Placed ρ)) :
    OfRun ((c, .within chain element inner) :: run)
      (.shared c.combinator chain (ofClauses (enter ((c, .within chain element inner) :: run))))

theorem insert_within_of_forall₂ {c : Clause} {chain : List String} {element : FieldType ρ}
    {inner : Resolved ρ} {clauses : List (Placed ρ)} {blocks : List (Block ρ)}
    (h : List.Forall₂ OfRun (runs clauses) blocks) :
    List.Forall₂ OfRun (runs ((c, .within chain element inner) :: clauses))
      (insert c.combinator c.operator c.literal (.within chain element inner) blocks) := by
  cases clauses with
  | nil =>
    cases h
    exact .cons (.shared c chain element inner []) .nil
  | cons q clauses =>
    cases hr : runs (q :: clauses) with
    | nil => exact absurd (List.splitBy_eq_nil.1 hr) (List.cons_ne_nil _ _)
    | cons run rest =>
      have hq := head?_of_runs_eq_cons hr
      rw [hr] at h
      obtain _ | ⟨hb, hrest⟩ := h
      cases hb with
      | direct c' chain' type' =>
        cases hq
        rw [runs_cons_of_not (by intro q hq; cases hq; rfl), hr]
        exact .cons (.shared c chain element inner []) (.cons (.direct c' chain' type') hrest)
      | shared c' chain' element' inner' run =>
        cases hq
        by_cases hc : chain = chain'
        · subst hc
          rw [runs_cons_of_same (by simp [Resolved.sameCollection]) hr, insert_within_same]
          exact .cons (.shared c chain element inner _) hrest
        · have hn : ∀ q ∈ ((c', Resolved.within chain' element' inner') :: clauses).head?,
              (Resolved.within chain element inner).sameCollection q.2 = false := by
            intro q hq
            cases hq
            simpa [Resolved.sameCollection] using hc
          rw [runs_cons_of_not hn, hr, insert_within_other _ _ _ _ _ (by
            intro next members rest heq
            cases heq
            exact hc rfl)]
          exact .cons (.shared c chain element inner [])
            (.cons (.shared c' chain' element' inner' run) hrest)

/-- **Blocks are runs.** Clauses inserted one by one form one block for each run, in order. -/
theorem forall₂_ofClauses (clauses : List (Placed ρ)) :
    List.Forall₂ OfRun (runs clauses) (ofClauses clauses) := by
  induction clauses with
  | nil => exact .nil
  | cons p clauses ih =>
    obtain ⟨c, r⟩ := p
    cases r with
    | leaf chain type =>
      rw [runs_cons_of_not (by intro q _; rfl)]
      exact .cons (.direct c chain type) ih
    | within chain element inner => exact insert_within_of_forall₂ ih

/-- Each run has its block, behind those of the runs in front of it. -/
theorem exists_of_runs_eq {clauses run : List (Placed ρ)} {before after : List (List (Placed ρ))}
    (h : runs clauses = before ++ run :: after) :
    ∃ earlier block later, ofClauses clauses = earlier ++ block :: later ∧
      (∀ b ∈ earlier, ∃ run ∈ before, OfRun run b) ∧ OfRun run block := by
  have hall := forall₂_ofClauses clauses
  rw [h] at hall
  generalize ofClauses clauses = blocks at hall ⊢
  clear h
  induction before generalizing blocks with
  | nil =>
    obtain _ | ⟨hb, _⟩ := hall
    exact ⟨[], _, _, rfl, by simp, hb⟩
  | cons first before ih =>
    obtain _ | ⟨hfirst, hrest⟩ := hall
    obtain ⟨earlier, block, later, rfl, hearlier, hb⟩ := ih _ hrest
    refine ⟨_ :: earlier, block, later, rfl, List.forall_mem_cons.2 ⟨?_, ?_⟩, hb⟩
    · exact ⟨first, List.mem_cons_self, hfirst⟩
    · intro b hb
      obtain ⟨run, hr, hrun⟩ := hearlier b hb
      exact ⟨run, List.mem_cons_of_mem _ hr, hrun⟩

end Block

end RecordFilter
