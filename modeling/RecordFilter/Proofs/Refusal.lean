import RecordFilter.Proofs.Blocks
import RecordFilter.Samples

/-!
# Why a request is refused

A request that is not too long is refused for a single clause, with the error that this clause
gives alone. Groups are looked at in order, and of a group the paths first, then the direct
clauses, then the runs, each from its elements on in the same way.

The clause to blame is described by `Culprit`, which knows of the clauses only which of them would
be refused alone. One half shows that what the clause to blame gives is what the request gives
(`compile_eq_error_of_culprit`), the other that some clause is to blame when any would be refused
(`exists_culprit`).
-/

namespace RecordFilter

variable {ρ : Type} {catalog : Catalog ρ} {root : ρ} {limits : Limits} {c : Clause}
  {e : FilterError}

/-! ## Clauses alone -/

/-- The request of a single clause. -/
def Clause.alone (c : Clause) : Request := ⟨[⟨[c], .standard⟩]⟩

/-- Whether a clause is refused when it is the only one. -/
def Clause.Refused (catalog : Catalog ρ) (root : ρ) (limits : Limits) (c : Clause) : Prop :=
  ∃ e, c.alone.compile catalog root limits = .error e

/-- The test of a clause whose path begins at a record type. -/
def Clause.attempt (catalog : Catalog ρ) (root : ρ) (maxDepth : Nat) (c : Clause) :
    Except FilterError ValueTest := do
  let r ← catalog.resolve maxDepth (.record root) c.path
  c.test catalog r.leafType

theorem Clause.attempt_of_resolve {maxDepth : Nat} {r : Resolved ρ}
    (h : catalog.resolve maxDepth (.record root) c.path = .ok r) :
    c.attempt catalog root maxDepth = c.test catalog r.leafType := by
  unfold attempt
  rw [h]
  rfl

theorem Clause.not_refused_iff :
    ¬ c.Refused catalog root limits ↔
      ∃ condition, c.alone.compile catalog root limits = .ok condition := by
  unfold Refused
  rw [← not_ok_iff_error, not_not]

/-! ## The clause to blame -/

/-- The clause to blame among placed clauses of which some fail: the first direct clause that does,
or if there is none, the clause to blame in the elements of the first run with one that does. -/
inductive Culprit (fails : Clause → Prop) : List (Placed ρ) → Clause → Prop
  | direct {before after : List (Placed ρ)} {c : Clause} {chain : List String}
      {type : FieldType ρ} :
    (∀ p ∈ before, p.2.isExistential = false → ¬ fails p.1) → fails c →
      Culprit fails (before ++ (c, .leaf chain type) :: after) c
  | inRun {clauses run : List (Placed ρ)} {before after : List (List (Placed ρ))} {c : Clause} :
    (∀ p ∈ clauses, p.2.isExistential = false → ¬ fails p.1) →
      runs clauses = before ++ run :: after → (∀ run ∈ before, ∀ p ∈ run, ¬ fails p.1) →
      Culprit fails (enter run) c → Culprit fails clauses c

/-- The clause to blame in a group: the first whose path does not resolve, or if there is none, the
one among the placed clauses. -/
inductive Group.Culprit (catalog : Catalog ρ) (root : ρ) (limits : Limits) (g : Group) :
    Clause → Prop
  | unresolved {before after : List Clause} {c : Clause} {e : FilterError} :
    g.clauses = before ++ c :: after →
      (∀ x ∈ before, ∃ r, catalog.resolve limits.maxPathDepth (.record root) x.path = .ok r) →
      catalog.resolve limits.maxPathDepth (.record root) c.path = .error e →
      g.Culprit catalog root limits c
  | placed {clauses : List (Placed ρ)} {c : Clause} :
    g.place catalog root limits.maxPathDepth = .ok clauses →
      RecordFilter.Culprit (Clause.Refused catalog root limits) clauses c →
      g.Culprit catalog root limits c

/-- The clause to blame in a request is the one in the first group with a clause that is refused
alone. -/
def Request.Culprit (catalog : Catalog ρ) (root : ρ) (limits : Limits) (request : Request)
    (c : Clause) : Prop :=
  ∃ before g after, request.groups = before ++ g :: after ∧
    (∀ g ∈ before, ∀ c ∈ g.clauses, ¬ c.Refused catalog root limits) ∧
    g.Culprit catalog root limits c

namespace Culprit

variable {fails : Clause → Prop} {clauses : List (Placed ρ)}

theorem failing (h : Culprit fails clauses c) : fails c := by
  induction h with
  | direct _ hc => exact hc
  | inRun _ _ _ _ ih => exact ih

theorem exists_mem (h : Culprit fails clauses c) : ∃ r, (c, r) ∈ clauses := by
  induction h with
  | direct => exact ⟨_, List.mem_append_cons_self⟩
  | inRun _ hruns _ _ ih =>
    obtain ⟨r, hr⟩ := ih
    obtain ⟨⟨c, q⟩, hq, heq⟩ := mem_enter.1 hr
    cases heq
    have hrun := mem_of_mem_runs (by rw [hruns]; exact List.mem_append_cons_self) hq
    exact ⟨q, hrun⟩

/-- The clause of a single path is to blame at whatever depth it ends. -/
theorem singleton (hc : fails c) (r : Resolved ρ) : Culprit fails [(c, r)] c := by
  induction r with
  | leaf chain type =>
    have hb : ∀ p ∈ ([] : List (Placed ρ)), p.2.isExistential = false → ¬ fails p.1 := by simp
    exact .direct hb hc
  | within chain element inner ih =>
    have hruns : runs [(c, Resolved.within chain element inner)] =
        [] ++ [(c, .within chain element inner)] :: [] := runs_singleton _
    refine .inRun ?_ hruns (by simp) ih
    simp [Resolved.isExistential]

/-- When some clause fails, one is to blame. -/
theorem exists_of_fails (h : ∃ p ∈ clauses, fails p.1) : ∃ c, Culprit fails clauses c := by
  induction hn : layers clauses using Nat.strong_induction_on generalizing clauses with
  | _ n ih =>
    subst hn
    by_cases hdirect : ∃ p ∈ clauses, p.2.isExistential = false ∧ fails p.1
    · obtain ⟨before, ⟨c, r⟩, after, rfl, hbefore, hr, hc⟩ := exists_first hdirect
      cases r with
      | leaf chain type => exact ⟨c, .direct (fun p hp hd hf => hbefore p hp ⟨hd, hf⟩) hc⟩
      | within chain element inner => cases hr
    · have hnone : ∀ p ∈ clauses, p.2.isExistential = false → ¬ fails p.1 :=
        fun p hp hd hf => hdirect ⟨p, hp, hd, hf⟩
      obtain ⟨p, hp, hf⟩ := h
      obtain ⟨run, hrun, hp⟩ := exists_run_of_mem hp
      obtain ⟨before, run, after, hruns, hbefore, p, hp, hf⟩ :=
        exists_first (p := fun run => ∃ p ∈ run, fails p.1) ⟨run, hrun, p, hp, hf⟩
      have hrun : run ∈ runs clauses := by rw [hruns]; exact List.mem_append_cons_self
      -- The run goes through a collection, so that fewer layers are left inside of it.
      have hlt : layers (enter run) < layers clauses := by
        refine Nat.lt_of_lt_of_le ?_ (layers_le_of_mem_runs hrun)
        obtain ⟨_, block, _, -, -, hb⟩ := Block.exists_of_runs_eq hruns
        cases hb with
        | direct c chain type =>
          cases List.mem_singleton.1 hp
          exact absurd hf (hnone _ (mem_of_mem_runs hrun hp) rfl)
        | shared c chain element inner run => exact layers_enter_lt c chain element inner run
      obtain ⟨c, hc⟩ := ih _ hlt ⟨_, mem_enter.2 ⟨p, hp, rfl⟩, hf⟩ rfl
      exact ⟨c, .inRun hnone hruns (fun run hr p hp hf => hbefore run hr ⟨p, hp, hf⟩) hc⟩

end Culprit

/-! ## Its error is the outcome -/

/-- What is made of a clause before the runs are looked at: the test of a direct one. -/
def Clause.checkDirect (catalog : Catalog ρ) (c : Clause) : Resolved ρ → Except FilterError Unit
  | .leaf _ type => (c.test catalog type).map fun _ => ()
  | .within _ _ _ => .ok ()

theorem Clause.checkDirect_eq_ok {r : Resolved ρ}
    (h : r.isExistential = false → ∃ test, c.test catalog r.leafType = .ok test) :
    c.checkDirect catalog r = .ok () := by
  cases r with
  | leaf chain type =>
    obtain ⟨test, ht⟩ := h rfl
    rw [checkDirect, show c.test catalog type = .ok test from ht]
    rfl
  | within chain element inner => rfl

namespace Block

/-- The direct clauses are looked at first, in order. -/
theorem forM_check_ofClauses (clauses : List (Placed ρ)) :
    (ofClauses clauses).forM (check catalog) =
      clauses.forM fun p => p.1.checkDirect catalog p.2 := by
  induction clauses with
  | nil => rfl
  | cons p clauses ih =>
    obtain ⟨c, r⟩ := p
    rw [ofClauses_cons]
    cases r with
    | leaf chain type =>
      show (check catalog (.direct _ _ _ _ _) >>= fun _ => (ofClauses clauses).forM _) =
        (c.checkDirect catalog (.leaf chain type) >>= fun _ => clauses.forM _)
      rw [ih, check, Clause.checkDirect, compileTest_eq]
      cases c.test catalog type <;> rfl
    | within chain element inner =>
      show _ = clauses.forM _
      rw [← ih]
      by_cases h : ∃ next members rest, ofClauses clauses = .shared next chain members :: rest
      · obtain ⟨next, members, rest, hblocks⟩ := h
        rw [hblocks, insert_within_same]
        rfl
      · rw [insert_within_other _ _ _ _ _ (by simpa using h)]
        rfl

/-- The block of a run compiles when the tests of its clauses can be made. -/
theorem OfRun.exists_compile_ok {run : List (Placed ρ)} {block : Block ρ} (hb : OfRun run block)
    (h : ∀ p ∈ run, ∃ test, p.1.test catalog p.2.leafType = .ok test) :
    ∃ compiled, compile catalog block = .ok compiled := by
  cases hb with
  | direct c chain type => exact exists_compile_direct_ok_iff.2 (h _ (List.mem_singleton_self _))
  | shared c chain element inner run =>
    refine exists_compile_shared_ok_iff.2 (exists_compileAll_ok_iff.1
      (exists_compileAll_ofClauses_ok_iff.2 fun p hp => ?_))
    obtain ⟨q, hq, rfl⟩ := mem_enter.1 hp
    rw [Resolved.leafType_inside]
    exact h q hq

/-- The error of a run that goes through a collection is the one it has in the elements. -/
theorem OfRun.compile_eq_error {run : List (Placed ρ)} {block : Block ρ} (hb : OfRun run block)
    (hdirect : ∀ p ∈ run, p.2.isExistential = false →
      ∃ test, p.1.test catalog p.2.leafType = .ok test)
    (h : compileAll catalog (ofClauses (enter run)) = .error e) :
    compile catalog block = .error e := by
  cases hb with
  | direct c chain type =>
    have hok : ∃ condition, compileAll catalog (ofClauses (enter [(c, .leaf chain type)])) =
        .ok condition := by
      refine exists_compileAll_ofClauses_ok_iff.2 fun p hp => ?_
      cases List.mem_singleton.1 hp
      exact hdirect _ (List.mem_singleton_self _) rfl
    exact absurd hok (not_ok_iff_error.2 ⟨e, h⟩)
  | shared c chain element inner run =>
    rw [compile_shared, h]
    rfl

/-- Clauses that have one to blame do not compile, and their error is the one of its test. -/
theorem compileAll_eq_error_of_culprit {fails : Clause → Prop} {clauses : List (Placed ρ)}
    (h : Culprit fails clauses c)
    (hfails : ∀ p ∈ clauses, ¬ fails p.1 → ∃ test, p.1.test catalog p.2.leafType = .ok test) :
    ∃ r, (c, r) ∈ clauses ∧ ∀ e, c.test catalog r.leafType = .error e →
      compileAll catalog (ofClauses clauses) = .error e := by
  induction h with
  | @direct before after c chain type hbefore hc =>
    refine ⟨.leaf chain type, List.mem_append_cons_self, fun e he => ?_⟩
    unfold compileAll
    rw [forM_check_ofClauses, forM_eq_error_of_first (e := e)]
    · rfl
    · intro p hp
      exact Clause.checkDirect_eq_ok fun hd =>
        hfails p (List.mem_append_left _ hp) (hbefore p hp hd)
    · rw [Clause.checkDirect, show c.test catalog type = .error e from he]
      rfl
  | @inRun clauses run before after c hnone hruns hbefore _ ih =>
    have hdirect : ∀ p ∈ clauses, p.2.isExistential = false →
        ∃ test, p.1.test catalog p.2.leafType = .ok test :=
      fun p hp hd => hfails p hp (hnone p hp hd)
    have hrun : ∀ p ∈ run, p ∈ clauses := fun p hp =>
      mem_of_mem_runs (by rw [hruns]; exact List.mem_append_cons_self) hp
    obtain ⟨r, hr, hout⟩ := ih fun p hp hf => by
      obtain ⟨q, hq, rfl⟩ := mem_enter.1 hp
      rw [Resolved.leafType_inside]
      exact hfails q (hrun q hq) hf
    obtain ⟨⟨c, q⟩, hq, heq⟩ := mem_enter.1 hr
    cases heq
    refine ⟨q, hrun _ hq, fun e he => ?_⟩
    have hchecks : (ofClauses clauses).forM (check catalog) = .ok () := by
      rw [forM_check_ofClauses, forM_eq_ok_iff]
      exact fun p hp => Clause.checkDirect_eq_ok (hdirect p hp)
    obtain ⟨earlier, block, later, hblocks, hearlier, hb⟩ := exists_of_runs_eq hruns
    have hblock : compile catalog block = .error e :=
      hb.compile_eq_error (fun p hp => hdirect p (hrun p hp))
        (hout e (by rwa [Resolved.leafType_inside]))
    unfold compileAll
    rw [hchecks, hblocks, compileEach_eq_mapM, mapM_eq_error_of_first _ hblock]
    · rfl
    · intro b hb
      obtain ⟨run', hr', hb⟩ := hearlier b hb
      refine hb.exists_compile_ok fun p hp => hfails p ?_ (hbefore run' hr' p hp)
      exact mem_of_mem_runs (by rw [hruns]; exact List.mem_append_left _ hr') hp

end Block

/-! ## What a clause gives alone -/

theorem Group.place_eq_ok_iff {maxDepth : Nat} {g : Group} {clauses : List (Placed ρ)} :
    g.place catalog root maxDepth = .ok clauses ↔
      (clauses.map fun p => p.1) = g.clauses ∧
        ∀ p ∈ clauses, catalog.resolve maxDepth (.record root) p.1.path = .ok p.2 := by
  unfold place
  rw [mapM_eq_ok_iff]
  generalize g.clauses = cs
  constructor
  · intro h
    induction h with
    | nil => simp
    | cons hp _ ih =>
      obtain ⟨r, hr, rfl⟩ := map_eq_ok_iff.1 hp
      exact ⟨by rw [List.map_cons, ih.1], List.forall_mem_cons.2 ⟨hr, ih.2⟩⟩
  · rintro ⟨rfl, h⟩
    induction clauses with
    | nil => exact .nil
    | cons p clauses ih =>
      rw [List.forall_mem_cons] at h
      exact .cons (map_eq_ok_iff.2 ⟨p.2, h.1, rfl⟩) (ih h.2)

/-- A group can be placed when all its paths resolve. -/
theorem Group.exists_place_ok_iff {maxDepth : Nat} {g : Group} :
    (∃ clauses, g.place catalog root maxDepth = .ok clauses) ↔
      ∀ c ∈ g.clauses, ∃ r, catalog.resolve maxDepth (.record root) c.path = .ok r := by
  unfold place
  rw [exists_mapM_eq_ok_iff]
  refine forall₂_congr fun c _ => ?_
  cases catalog.resolve maxDepth (.record root) c.path <;> simp [Except.map]

/-- The blocks of a single clause fail with the error of its test. -/
theorem Block.compileAll_singleton_eq_error {r : Resolved ρ}
    (h : c.test catalog r.leafType = .error e) :
    compileAll catalog (ofClauses [(c, r)]) = .error e := by
  have hc : Culprit (· = c) [(c, r)] c := by
    refine .singleton ?_ r
    rfl
  obtain ⟨r', hr', hout⟩ : ∃ r', (c, r') ∈ [(c, r)] ∧ ∀ e, c.test catalog r'.leafType = .error e →
      compileAll catalog (ofClauses [(c, r)]) = .error e :=
    compileAll_eq_error_of_culprit hc (by simp)
  cases List.mem_singleton.1 hr'
  exact hout e h

/-- A clause alone fails with the error of its path or of its test. -/
theorem Group.compile_singleton_eq_error_iff {maxDepth : Nat} {combinator : Combinator} :
    Group.compile catalog root maxDepth ⟨[c], combinator⟩ = .error e ↔
      c.attempt catalog root maxDepth = .error e := by
  have hplace {r : Resolved ρ} (hr : catalog.resolve maxDepth (.record root) c.path = .ok r) :
      Group.place catalog root maxDepth ⟨[c], combinator⟩ = .ok [(c, r)] :=
    Group.place_eq_ok_iff.2 ⟨rfl, by simpa using hr⟩
  rw [Group.compile_eq]
  refine eq_error_iff_of_imp (fun test h => ?_) (fun e h => ?_)
  · obtain ⟨r, hr, ht⟩ := bind_eq_ok_iff.1 h
    rw [hplace hr]
    exact Block.exists_compileAll_ofClauses_ok_iff.2 (by simpa using ⟨test, ht⟩)
  · obtain hr | ⟨r, hr, ht⟩ := bind_eq_error_iff.1 h
    · rw [place, List.mapM_cons, hr]
      rfl
    · rw [hplace hr]
      exact Block.compileAll_singleton_eq_error ht

theorem Clause.compile_alone_eq_error_iff (h : 0 < limits.maxClauses) :
    c.alone.compile catalog root limits = .error e ↔
      c.attempt catalog root limits.maxPathDepth = .error e := by
  have hle : c.alone.clauseCount ≤ limits.maxClauses := h
  rw [Request.compile_of_le hle, map_eq_error_iff, ← Group.compile_singleton_eq_error_iff,
    show c.alone.filledGroups = [⟨[c], .standard⟩] from rfl, List.mapM_cons]
  cases Group.compile catalog root limits.maxPathDepth ⟨[c], .standard⟩ <;>
    simp [Except.map, bind, Except.bind, pure, Except.pure]

theorem Clause.not_refused_iff_attempt (h : 0 < limits.maxClauses) :
    ¬ c.Refused catalog root limits ↔
      ∃ test, c.attempt catalog root limits.maxPathDepth = .ok test := by
  unfold Refused
  simp only [compile_alone_eq_error_iff h]
  rw [← not_ok_iff_error, not_not]

/-! ## Groups -/

namespace Group

variable {g : Group}

/-- A group compiles when each of its clauses does. -/
theorem exists_compile_ok_iff (h : 0 < limits.maxClauses) :
    (∃ condition, g.compile catalog root limits.maxPathDepth = .ok condition) ↔
      ∀ c ∈ g.clauses, ¬ c.Refused catalog root limits := by
  simp only [Clause.not_refused_iff_attempt h, compile_eq, bind_eq_ok_iff]
  constructor
  · rintro ⟨condition, clauses, hplace, hc⟩ c hmem
    obtain ⟨hclauses, hresolve⟩ := place_eq_ok_iff.1 hplace
    rw [← hclauses] at hmem
    obtain ⟨p, hp, rfl⟩ := List.mem_map.1 hmem
    rw [Clause.attempt_of_resolve (hresolve p hp)]
    exact Block.exists_compileAll_ofClauses_ok_iff.1 ⟨condition, hc⟩ p hp
  · intro hall
    obtain ⟨clauses, hplace⟩ :
        ∃ clauses, g.place catalog root limits.maxPathDepth = .ok clauses := by
      refine exists_place_ok_iff.2 fun c hc => ?_
      obtain ⟨test, ht⟩ := hall c hc
      obtain ⟨r, hr, -⟩ := bind_eq_ok_iff.1 ht
      exact ⟨r, hr⟩
    obtain ⟨hclauses, hresolve⟩ := place_eq_ok_iff.1 hplace
    have hok : ∀ p ∈ clauses, ∃ test, p.1.test catalog p.2.leafType = .ok test := by
      intro p hp
      rw [← Clause.attempt_of_resolve (hresolve p hp)]
      exact hall p.1 (hclauses ▸ List.mem_map_of_mem hp)
    obtain ⟨condition, hc⟩ := Block.exists_compileAll_ofClauses_ok_iff.2 hok
    exact ⟨condition, clauses, hplace, hc⟩

theorem Culprit.mem (h : g.Culprit catalog root limits c) : c ∈ g.clauses := by
  cases h with
  | unresolved hclauses =>
    rw [hclauses]
    exact List.mem_append_cons_self
  | placed hplace hc =>
    obtain ⟨r, hr⟩ := hc.exists_mem
    rw [← (place_eq_ok_iff.1 hplace).1]
    exact List.mem_map_of_mem hr

theorem Culprit.refused (hpos : 0 < limits.maxClauses) (h : g.Culprit catalog root limits c) :
    c.Refused catalog root limits := by
  cases h with
  | @unresolved _ _ _ e _ _ hr =>
    refine ⟨e, (Clause.compile_alone_eq_error_iff hpos).2 ?_⟩
    unfold Clause.attempt
    rw [hr]
    rfl
  | placed _ hc => exact hc.failing

/-- When some clause of a group is refused alone, one is to blame. -/
theorem exists_culprit (h : ∃ c ∈ g.clauses, c.Refused catalog root limits) :
    ∃ c, g.Culprit catalog root limits c := by
  cases hplace : g.place catalog root limits.maxPathDepth with
  | error e =>
    have hunresolved : ∃ c ∈ g.clauses, ¬ ∃ r,
        catalog.resolve limits.maxPathDepth (.record root) c.path = .ok r := by
      by_contra hall
      push Not at hall
      exact not_ok_iff_error.2 ⟨e, hplace⟩ (exists_place_ok_iff.2 hall)
    obtain ⟨before, c, after, hclauses, hbefore, hc⟩ := exists_first hunresolved
    obtain ⟨e, he⟩ := not_ok_iff_error.1 hc
    exact ⟨c, .unresolved hclauses (fun x hx => not_not.1 (hbefore x hx)) he⟩
  | ok clauses =>
    obtain ⟨c, hc, hf⟩ := h
    rw [← (place_eq_ok_iff.1 hplace).1] at hc
    obtain ⟨p, hp, rfl⟩ := List.mem_map.1 hc
    obtain ⟨c, hc⟩ := RecordFilter.Culprit.exists_of_fails ⟨p, hp, hf⟩
    exact ⟨c, .placed hplace hc⟩

/-- A group with a clause to blame fails with the error that this clause gives alone. -/
theorem compile_eq_error_of_culprit (h : 0 < limits.maxClauses)
    (hc : g.Culprit catalog root limits c)
    (he : c.alone.compile catalog root limits = .error e) :
    g.compile catalog root limits.maxPathDepth = .error e := by
  rw [Clause.compile_alone_eq_error_iff h] at he
  rw [compile_eq]
  cases hc with
  | @unresolved before after c e' hclauses hbefore hr =>
    obtain rfl : e' = e := by
      unfold Clause.attempt at he
      rw [hr] at he
      exact Except.error.inj he
    unfold place
    rw [hclauses, mapM_eq_error_of_first (e := e')]
    · rfl
    · intro x hx
      obtain ⟨r, hr⟩ := hbefore x hx
      exact ⟨(x, r), map_eq_ok_iff.2 ⟨r, hr, rfl⟩⟩
    · rw [hr]
      rfl
  | @placed clauses c hplace hc =>
    have hresolve := (place_eq_ok_iff.1 hplace).2
    obtain ⟨r, hr, hout⟩ := Block.compileAll_eq_error_of_culprit hc fun p hp hf => by
      rw [← Clause.attempt_of_resolve (hresolve p hp)]
      exact (Clause.not_refused_iff_attempt h).1 hf
    rw [Clause.attempt_of_resolve (hresolve _ hr)] at he
    rw [hplace]
    exact hout e he

end Group

/-! ## Requests -/

namespace Request

variable {request : Request}

theorem length_le_clauseCount {g : Group} (h : g ∈ request.groups) :
    g.clauses.length ≤ request.clauseCount := by
  unfold clauseCount
  generalize request.groups = groups at h
  induction groups with
  | nil => cases h
  | cons first groups ih =>
    rw [List.foldr_cons]
    obtain rfl | h := List.mem_cons.1 h
    · exact Nat.le_add_right _ _
    · exact Nat.le_add_left_of_le (ih h)

/-- A request with a clause that is not too long leaves room for one clause. -/
theorem maxClauses_pos (hle : request.clauseCount ≤ limits.maxClauses) {g : Group}
    (hg : g ∈ request.groups) (hc : c ∈ g.clauses) : 0 < limits.maxClauses := by
  have hlen := length_le_clauseCount hg
  have hpos := List.length_pos_of_mem hc
  omega

theorem exists_compile_ok_iff_of_le (hle : request.clauseCount ≤ limits.maxClauses) :
    (∃ condition, request.compile catalog root limits = .ok condition) ↔
      ∀ g ∈ request.groups, ∀ c ∈ g.clauses, ¬ c.Refused catalog root limits := by
  have hgroups : (∃ condition, request.compile catalog root limits = .ok condition) ↔
      ∀ g ∈ request.filledGroups, ∃ condition,
        g.compile catalog root limits.maxPathDepth = .ok condition := by
    simp only [compile_of_le hle, map_eq_ok_iff]
    constructor
    · rintro ⟨_, conditions, hc, -⟩ g hg
      obtain ⟨_, h⟩ := exists_mapM_eq_ok_iff.1 ⟨conditions, hc⟩ g hg
      obtain ⟨condition, h, -⟩ := map_eq_ok_iff.1 h
      exact ⟨condition, h⟩
    · intro hall
      obtain ⟨conditions, hc⟩ := exists_mapM_eq_ok_iff.2 fun g hg => by
        obtain ⟨condition, h⟩ := hall g hg
        exact ⟨(g.combinator, condition), map_eq_ok_iff.2 ⟨condition, h, rfl⟩⟩
      exact ⟨_, conditions, hc, rfl⟩
  rw [hgroups]
  constructor
  · intro hall g hg c hc
    have hfilled : g ∈ request.filledGroups := by
      refine List.mem_filter.2 ⟨hg, ?_⟩
      rw [Group.isEmpty, List.isEmpty_eq_false_iff_exists_mem.2 ⟨c, hc⟩]
      rfl
    exact (Group.exists_compile_ok_iff (maxClauses_pos hle hg hc)).1 (hall g hfilled) c hc
  · intro hall g hg
    obtain ⟨hg, hfilled⟩ := List.mem_filter.1 hg
    obtain ⟨c, hc⟩ : ∃ c, c ∈ g.clauses := by
      rw [← List.isEmpty_eq_false_iff_exists_mem]
      simpa [Group.isEmpty] using hfilled
    exact (Group.exists_compile_ok_iff (maxClauses_pos hle hg hc)).2 (hall g hg)

/-- When some clause of a request is refused alone, one is to blame. -/
theorem exists_culprit (h : ∃ g ∈ request.groups, ∃ c ∈ g.clauses, c.Refused catalog root limits) :
    ∃ c, request.Culprit catalog root limits c := by
  obtain ⟨before, g, after, hgroups, hbefore, hg⟩ := exists_first h
  obtain ⟨c, hc⟩ := Group.exists_culprit hg
  exact ⟨c, before, g, after, hgroups, fun g hg c hc hr => hbefore g hg ⟨c, hc, hr⟩, hc⟩

theorem Culprit.maxClauses_pos (hle : request.clauseCount ≤ limits.maxClauses)
    (h : request.Culprit catalog root limits c) : 0 < limits.maxClauses := by
  obtain ⟨before, g, after, hgroups, -, hc⟩ := h
  have hg : g ∈ request.groups := by
    rw [hgroups]
    exact List.mem_append_cons_self
  exact Request.maxClauses_pos hle hg hc.mem

theorem Culprit.refused (hle : request.clauseCount ≤ limits.maxClauses)
    (h : request.Culprit catalog root limits c) : c.Refused catalog root limits := by
  have hpos := h.maxClauses_pos hle
  obtain ⟨before, g, after, -, -, hc⟩ := h
  exact hc.refused hpos

/-- A request with a clause to blame fails with the error that this clause gives alone. -/
theorem compile_eq_error_of_culprit (hle : request.clauseCount ≤ limits.maxClauses)
    (h : request.Culprit catalog root limits c)
    (he : c.alone.compile catalog root limits = .error e) :
    request.compile catalog root limits = .error e := by
  have hpos := h.maxClauses_pos hle
  obtain ⟨before, g, after, hgroups, hbefore, hc⟩ := h
  have hfilled : request.filledGroups = before.filter (fun g => !g.isEmpty) ++
      g :: after.filter (fun g => !g.isEmpty) := by
    unfold filledGroups
    rw [hgroups, List.filter_append, List.filter_cons_of_pos]
    rw [Group.isEmpty, List.isEmpty_eq_false_iff_exists_mem.2 ⟨c, hc.mem⟩]
    rfl
  rw [compile_of_le hle, map_eq_error_iff, hfilled]
  refine mapM_eq_error_of_first (fun g hg => ?_) ?_
  · obtain ⟨condition, h⟩ := (Group.exists_compile_ok_iff hpos).2
      (hbefore g (List.mem_of_mem_filter hg))
    exact ⟨_, map_eq_ok_iff.2 ⟨condition, h, rfl⟩⟩
  · exact map_eq_error_iff.2 (Group.compile_eq_error_of_culprit hpos hc he)

end Request

/-- **Why a request is refused.** A request compiles exactly when it is not too long and each of
its clauses compiles alone. If it is too long, that is its error. Otherwise its error is the one
that the clause to blame gives alone. -/
theorem compile_refusal (catalog : Catalog ρ) (root : ρ) (limits : Limits) (request : Request) :
    ((∃ condition, request.compile catalog root limits = .ok condition) ↔
      request.clauseCount ≤ limits.maxClauses ∧ ∀ g ∈ request.groups, ∀ c ∈ g.clauses,
        ∃ condition, c.alone.compile catalog root limits = .ok condition) ∧
    (limits.maxClauses < request.clauseCount →
      request.compile catalog root limits =
        .error (.limitExceeded .clauseCount limits.maxClauses)) ∧
    (request.clauseCount ≤ limits.maxClauses → ∀ e,
      request.compile catalog root limits = .error e ↔
        ∃ c, request.Culprit catalog root limits c ∧
          c.alone.compile catalog root limits = .error e) := by
  refine ⟨?_, Request.compile_of_lt, fun hle e => ⟨fun h => ?_, ?_⟩⟩
  · simp only [← Clause.not_refused_iff]
    by_cases hle : request.clauseCount ≤ limits.maxClauses
    · rw [Request.exists_compile_ok_iff_of_le hle, and_iff_right hle]
    · rw [Request.compile_of_lt (Nat.not_le.1 hle)]
      simp [hle]
  · have hrefused : ∃ g ∈ request.groups, ∃ c ∈ g.clauses, c.Refused catalog root limits := by
      by_contra hall
      push Not at hall
      exact not_ok_iff_error.2 ⟨e, h⟩ ((Request.exists_compile_ok_iff_of_le hle).2 hall)
    obtain ⟨c, hc⟩ := Request.exists_culprit hrefused
    obtain ⟨e', he'⟩ := hc.refused hle
    rw [Request.compile_eq_error_of_culprit hle hc he'] at h
    cases h
    exact ⟨c, hc, he'⟩
  · rintro ⟨c, hc, he⟩
    exact Request.compile_eq_error_of_culprit hle hc he

/-- Adults with an order in a state that there is not, priced like a text, or who have a tag; and
without a nickname, which customers do not have either. -/
def strayRequest : Request where
  groups := [
    ⟨[⟨.ofText "age", .greater, .str "18", .and⟩], .and⟩,
    ⟨[⟨.ofText "orders.items.price", .contains, .str "9", .and⟩,
      ⟨.ofText "orders.state", .equal, .str "lost", .and⟩,
      ⟨.ofText "tags", .greater, .str "a", .or⟩], .or⟩,
    ⟨[⟨.ofText "nickname", .equal, .null, .and⟩], .and⟩]

/-- The state is to blame: it is asked of the orders themselves, the price only of their items, and
the nickname in a later group. -/
theorem compile_refusal_strayRequest :
    strayRequest.compile Sample.catalog .customer .standard =
        .error (.conversion "lost" "OrderState") ∧
      ∃ c, strayRequest.Culprit Sample.catalog .customer .standard c ∧
        c.alone.compile Sample.catalog .customer .standard =
          .error (.conversion "lost" "OrderState") := by
  have h : strayRequest.compile Sample.catalog .customer .standard =
      .error (.conversion "lost" "OrderState") := by
    rw [← map_eq_error_iff (f := fun _ => ())]
    decide +kernel
  exact ⟨h, ((compile_refusal _ _ _ _).2.2 (by decide) _).1 h⟩

end RecordFilter
