import RecordFilter.Proofs.Conforming
import RecordFilter.Samples

/-!
# What evaluating a condition comes to

Evaluating a condition, one looks for elements in some values and tests others. `Condition.evaluate`
gives these steps beside the truth value, in order and as far as they are taken: an element that
meets the condition ends the search, and what a combinator does not ask for is not looked at.

Each step belongs to a clause of the request (`Step.belongs_of_compileAll`), and what a clause can
come to on a conforming record is known from its path. Together this is `compile_sound`: the
evaluation of a compiled request never leaves the types that it was compiled for.
-/

namespace RecordFilter

variable {ρ : Type} {catalog : Catalog ρ}

/-! ## Steps -/

/-- What is done with a value in evaluating a condition. -/
inductive Step where
  /-- Elements are looked for in the value. -/
  | searched (v : Value)
  /-- The value is tested. -/
  | tested (test : ValueTest) (v : Value)

/-- Evaluates values in order up to the first one that is accepted. -/
def Step.searchIn (evaluate : Value → Bool × List Step) : List Value → Bool × List Step
  | [] => (false, [])
  | item :: items =>
    if (evaluate item).1 then (true, (evaluate item).2)
    else ((searchIn evaluate items).1, (evaluate item).2 ++ (searchIn evaluate items).2)

/-- Whether a condition holds of a value, and the steps that are taken to find out. -/
def Condition.evaluate : Condition → Value → Bool × List Step
  | always, _ => (true, [])
  | test chain t, v => (t.passes (v.walk chain), [.tested t (v.walk chain)])
  | someElement chain inner, v =>
    match v.walk chain with
    | .list items =>
      ((Step.searchIn inner.evaluate items).1,
        .searched (.list items) :: (Step.searchIn inner.evaluate items).2)
    | other => (false, [.searched other])
  | join combinator before next, v =>
    if combinator.asks (before.evaluate v).1 then
      ((next.evaluate v).1, (before.evaluate v).2 ++ (next.evaluate v).2)
    else before.evaluate v

theorem Step.searchIn_fst {evaluate : Value → Bool × List Step} {holds : Value → Bool}
    (h : ∀ v, (evaluate v).1 = holds v) (items : List Value) :
    (searchIn evaluate items).1 = items.any holds := by
  induction items with
  | nil => rfl
  | cons item items ih =>
    rw [searchIn, List.any_cons, ← h]
    cases (evaluate item).1 with
    | true => rfl
    | false => exact ih

theorem Step.mem_searchIn {evaluate : Value → Bool × List Step} {items : List Value} {step : Step}
    (h : step ∈ (searchIn evaluate items).2) : ∃ item ∈ items, step ∈ (evaluate item).2 := by
  induction items with
  | nil => cases h
  | cons item items ih =>
    rw [searchIn] at h
    split at h
    · exact ⟨item, List.mem_cons_self, h⟩
    · rcases List.mem_append.1 h with h | h
      · exact ⟨item, List.mem_cons_self, h⟩
      · obtain ⟨later, hlater, h⟩ := ih h
        exact ⟨later, List.mem_cons_of_mem _ hlater, h⟩

namespace Condition

/-- The truth value that evaluation finds is the one that the condition has. -/
theorem evaluate_fst (condition : Condition) (v : Value) :
    (condition.evaluate v).1 = condition.holds v := by
  induction condition generalizing v with
  | always => rfl
  | test chain t => rfl
  | someElement chain inner ih =>
    rw [evaluate, holds]
    cases v.walk chain with
    | list items => exact Step.searchIn_fst ih items
    | _ => rfl
  | join combinator before next ihb ihn =>
    rw [evaluate, holds, Combinator.apply, ← ihb, ← ihn]
    split <;> rfl

theorem mem_evaluate_someElement {chain : List String} {inner : Condition} {v : Value}
    {step : Step} (h : step ∈ ((someElement chain inner).evaluate v).2) :
    step = .searched (v.walk chain) ∨
      ∃ item ∈ (v.walk chain).items?.getD [], step ∈ (inner.evaluate item).2 := by
  rw [evaluate] at h
  cases hw : v.walk chain with
  | list items =>
    rw [hw] at h
    rcases List.mem_cons.1 h with rfl | h
    · exact .inl rfl
    · exact .inr (Step.mem_searchIn h)
  | _ =>
    rw [hw] at h
    exact .inl (List.mem_singleton.1 h)

theorem mem_evaluate_join {combinator : Combinator} {before next : Condition} {v : Value}
    {step : Step} (h : step ∈ ((join combinator before next).evaluate v).2) :
    step ∈ (before.evaluate v).2 ∨ step ∈ (next.evaluate v).2 := by
  rw [evaluate] at h
  split at h
  · exact List.mem_append.1 h
  · exact .inl h

/-- A step towards conditions that are joined is one towards one of them. -/
theorem mem_evaluate_joined {conditions : List (Combinator × Condition)} {v : Value} {step : Step}
    (h : step ∈ ((joined conditions).evaluate v).2) :
    ∃ c ∈ conditions, step ∈ (c.2.evaluate v).2 := by
  cases conditions with
  | nil => cases h
  | cons first rest =>
    have key : ∀ (rest : List (Combinator × Condition)) (start : Condition),
        step ∈ ((rest.foldl (fun before next => join next.1 before next.2) start).evaluate v).2 →
        step ∈ (start.evaluate v).2 ∨ ∃ c ∈ rest, step ∈ (c.2.evaluate v).2 := by
      intro rest
      induction rest with
      | nil => exact fun start h => .inl h
      | cons c rest ih =>
        intro start h
        rcases ih (join c.1 start c.2) h with h | ⟨c', hc', h⟩
        · exact (mem_evaluate_join h).imp_right fun h => ⟨c, List.mem_cons_self, h⟩
        · exact .inr ⟨c', List.mem_cons_of_mem _ hc', h⟩
    rcases key rest first.2 h with h | ⟨c, hc, h⟩
    · exact ⟨first, List.mem_cons_self, h⟩
    · exact ⟨c, List.mem_cons_of_mem _ hc, h⟩

end Condition

/-! ## Steps belong to clauses -/

/-- A step is one that a clause with a resolved path takes on a value. -/
def Step.Belongs (catalog : Catalog ρ) (p : Placed ρ) (v : Value) : Step → Prop
  | searched x => x ∈ p.2.searched v
  | tested test x => p.1.test catalog p.2.leafType = .ok test ∧ x ∈ p.2.leaves v

/-- What a clause does with an element of its first collection, it does with the collection. -/
theorem Step.Belongs.of_inside {p : Placed ρ} {chain : List String} {element : FieldType ρ}
    {inner : Resolved ρ} (hp : p.2 = .within chain element inner) {v item : Value}
    (hitem : item ∈ (v.walk chain).items?.getD []) {step : Step}
    (h : step.Belongs catalog (p.1, p.2.inside) item) : step.Belongs catalog p v := by
  obtain ⟨c, r⟩ := p
  cases hp
  cases step with
  | searched x => exact List.mem_cons_of_mem _ (List.mem_flatMap.2 ⟨item, hitem, h⟩)
  | tested test x => exact ⟨h.1, List.mem_flatMap.2 ⟨item, hitem, h.2⟩⟩

/-- Each step towards compiled clauses belongs to one of them. -/
theorem Step.belongs_of_compileAll {clauses : List (Placed ρ)} {condition : Condition}
    (h : Block.compileAll catalog (Block.ofClauses clauses) = .ok condition) {v : Value}
    {step : Step} (hstep : step ∈ (condition.evaluate v).2) :
    ∃ p ∈ clauses, step.Belongs catalog p v := by
  -- As in the reading of conditions, entering a run leaves fewer layers.
  induction hn : layers clauses using Nat.strong_induction_on
    generalizing clauses condition v with
  | _ n ih =>
    subst hn
    obtain ⟨conditions, hc, rfl⟩ := Block.compileAll_eq_ok_iff.1 h
    obtain ⟨compiled, hcompiled, hstep⟩ := Condition.mem_evaluate_joined hstep
    obtain ⟨block, hblock, hb⟩ := exists_left_of_forall₂ hc hcompiled
    obtain ⟨run, hrun, hofRun⟩ := exists_left_of_forall₂ (Block.forall₂_ofClauses clauses) hblock
    cases hofRun with
    | direct c chain type =>
      obtain ⟨test, htest, rfl⟩ := Block.compile_direct_eq_ok hb
      have hmem := mem_of_mem_runs hrun (List.mem_singleton_self _)
      cases List.mem_singleton.1 hstep
      exact ⟨_, hmem, htest, List.mem_singleton_self _⟩
    | shared c chain element inner run =>
      obtain ⟨condition, hcondition, rfl⟩ := Block.compile_shared_eq_ok hb
      rcases Condition.mem_evaluate_someElement hstep with rfl | ⟨item, hitem, hstep⟩
      · exact ⟨_, mem_of_mem_runs hrun List.mem_cons_self, List.mem_cons_self⟩
      · have hlt := (layers_enter_lt c chain element inner run).trans_le
          (layers_le_of_mem_runs hrun)
        obtain ⟨q, hq, hbelongs⟩ := ih _ hlt hcondition hstep rfl
        obtain ⟨p, hp, rfl⟩ := mem_enter.1 hq
        obtain ⟨element', inner', hwithin⟩ := exists_within_of_mem_run hrun p hp
        exact ⟨p, mem_of_mem_runs hrun hp, .of_inside hwithin hitem hbelongs⟩

/-- Each clause that was placed is a clause of the request with its resolved path. -/
theorem Request.mem_clauses_of_place {root : ρ} {maxDepth : Nat} {request : Request}
    {placed : List (Combinator × List (Placed ρ))}
    (h : request.place catalog root maxDepth = .ok placed) {group : Combinator × List (Placed ρ)}
    (hgroup : group ∈ placed) {p : Placed ρ} (hp : p ∈ group.2) :
    p.1 ∈ request.groups.flatMap (·.clauses) ∧
      catalog.resolve maxDepth (.record root) p.1.path = .ok p.2 := by
  obtain ⟨g, hg, hplace⟩ := exists_left_of_forall₂ (mapM_eq_ok_iff.1 h) hgroup
  obtain ⟨clauses, hclauses, rfl⟩ := map_eq_ok_iff.1 hplace
  obtain ⟨c, hc, hresolve⟩ := exists_left_of_forall₂ (mapM_eq_ok_iff.1 hclauses) hp
  obtain ⟨r, hr, rfl⟩ := map_eq_ok_iff.1 hresolve
  exact ⟨List.mem_flatMap.2 ⟨g, List.mem_of_mem_filter hg, hc⟩, hr⟩

/-- Each step towards a compiled request belongs to one of its clauses. -/
theorem Step.belongs_of_compile {root : ρ} {limits : Limits} {request : Request}
    {condition : Condition} (h : request.compile catalog root limits = .ok condition) {v : Value}
    {step : Step} (hstep : step ∈ (condition.evaluate v).2) :
    ∃ c ∈ request.groups.flatMap (·.clauses), ∃ r,
      catalog.resolve limits.maxPathDepth (.record root) c.path = .ok r ∧
        step.Belongs catalog (c, r) v := by
  obtain ⟨placed, hplaced, conditions, hc, rfl⟩ := Request.place_of_compile h
  obtain ⟨compiled, hcompiled, hstep⟩ := Condition.mem_evaluate_joined hstep
  obtain ⟨group, hgroup, -, hg⟩ := exists_left_of_forall₂ hc hcompiled
  obtain ⟨p, hp, hbelongs⟩ := belongs_of_compileAll hg hstep
  obtain ⟨hclause, hresolve⟩ := Request.mem_clauses_of_place hplaced hgroup hp
  exact ⟨p.1, hclause, p.2, hresolve, hbelongs⟩

/-! ## Tests of a family -/

/-- A test by order compares with the literal that it was built from, which is not null. -/
theorem ValueTest.eq_of_build_order {type : FieldType ρ} {coerced literal : Coerced}
    {operator operator' : Operator}
    (h : build catalog type coerced operator = .ok (.order operator' literal)) :
    literal = coerced ∧ coerced ≠ .null := by
  obtain ⟨-, h⟩ := build_eq_ok_iff.1 h
  cases coerced with
  | null =>
    rw [ofCoerced] at h
    split at h <;> cases h
  | str raw folded => cases h
  | _ => cases h; exact ⟨rfl, nofun⟩

/-! ## Soundness -/

/-- What is known of a value that is tested for a clause: the test is the clause's own, its path
reaches the value, value and literal are of the leaf's family as far as they are not null, and a
null comes from a nullable type that was walked since the last collection. -/
structure Clause.TestsWithin (catalog : Catalog ρ) (root : ρ) (maxDepth : Nat) (c : Clause)
    (v : Value) (r : Resolved ρ) (coerced : Coerced) (test : ValueTest) (x : Value) : Prop where
  resolved : catalog.resolve maxDepth (.record root) c.path = .ok r
  converted : c.literal.coerce catalog r.leafType = .ok coerced
  built : ValueTest.build catalog r.leafType coerced c.operator = .ok test
  reached : x ∈ catalog.reach v (.record root) c.path.segments
  value_family : x = .null ∨ x.family? = some r.leafType.family
  literal_family : coerced = .null ∨ coerced.family? = some r.leafType.family
  nullable : x = .null → ∃ type ∈ catalog.walked [] (.record root) c.path.segments,
    type.isOptional = true

section Soundness

variable {root : ρ} {limits : Limits} {request : Request} {condition : Condition} {v : Value}

theorem Step.searched_of_compile (h : request.compile catalog root limits = .ok condition)
    (hv : Conforms catalog (.record root) v) {x : Value}
    (hstep : .searched x ∈ (condition.evaluate v).2) : x = .null ∨ ∃ items, x = .list items := by
  obtain ⟨c, -, r, hr, hx⟩ := belongs_of_compile h hstep
  have hfits : catalog.Fits [] (.record root) v := .inl hv
  exact Catalog.searched_of_fits (Catalog.follow_of_resolve hr) hfits x hx

theorem Step.tested_of_compile (h : request.compile catalog root limits = .ok condition)
    (hv : Conforms catalog (.record root) v) {test : ValueTest} {x : Value}
    (hstep : .tested test x ∈ (condition.evaluate v).2) :
    ∃ c ∈ request.groups.flatMap (·.clauses), ∃ r coerced,
      c.TestsWithin catalog root limits.maxPathDepth v r coerced test x := by
  obtain ⟨c, hc, r, hr, htest, hx⟩ := belongs_of_compile h hstep
  obtain ⟨coerced, hcoerced, hbuild⟩ := Clause.test_eq_ok_iff.1 htest
  have hfollow := Catalog.follow_of_resolve hr
  have hfits : catalog.Fits [] (.record root) v := .inl hv
  have hleaf := Catalog.leaves_of_fits hfollow hfits x hx
  refine ⟨c, hc, r, coerced, hr, hcoerced, hbuild, ?_, hleaf.imp_left And.left,
    Literal.family?_of_coerce hcoerced, ?_⟩
  · rw [← Catalog.leaves_of_follow hfollow]
    exact hx
  · rintro rfl
    rcases hleaf with hnull | hfamily
    · exact hnull.2
    · cases hfamily

/-- A test by order compares values of one family, unless the field is null. -/
theorem Clause.TestsWithin.order {c : Clause} {maxDepth : Nat} {r : Resolved ρ}
    {coerced literal : Coerced} {operator : Operator} {x : Value}
    (h : c.TestsWithin catalog root maxDepth v r coerced (.order operator literal) x) :
    x = .null ∨ ∃ family, x.family? = some family ∧ literal.family? = some family := by
  obtain ⟨rfl, hne⟩ := ValueTest.eq_of_build_order h.built
  exact h.value_family.imp_right fun hx => ⟨_, hx, h.literal_family.resolve_left hne⟩

/-- **Evaluation keeps to the types.** A request that compiles is evaluated on a conforming record
in steps of these kinds only. Elements are looked for in lists and in null. What is tested is
reached by a clause and of the family of its leaf (`Clause.TestsWithin`). So no integer is ever
compared with a float, and nothing but null and not-a-number is found incomparable. -/
theorem compile_sound (h : request.compile catalog root limits = .ok condition)
    (hv : Conforms catalog (.record root) v) :
    (condition.evaluate v).1 = condition.holds v ∧
    (∀ x, .searched x ∈ (condition.evaluate v).2 → x = .null ∨ ∃ items, x = .list items) ∧
    (∀ test x, .tested test x ∈ (condition.evaluate v).2 →
      ∃ c ∈ request.groups.flatMap (·.clauses), ∃ r coerced,
        c.TestsWithin catalog root limits.maxPathDepth v r coerced test x) ∧
    (∀ operator literal x, .tested (.order operator literal) x ∈ (condition.evaluate v).2 →
      (∀ a b, ¬ (x = .int a ∧ literal = .float b) ∧ ¬ (x = .float b ∧ literal = .int a)) ∧
      (compareField x literal = none →
        x = .null ∨ x = .float .nan ∨ literal = .float .nan)) := by
  refine ⟨condition.evaluate_fst v, fun x => Step.searched_of_compile h hv,
    fun test x => Step.tested_of_compile h hv, ?_⟩
  intro operator literal x hstep
  obtain ⟨c, -, r, coerced, hwithin⟩ := Step.tested_of_compile h hv hstep
  rcases hwithin.order with rfl | ⟨family, hx, hliteral⟩
  · exact ⟨fun a b => ⟨by simp, by simp⟩, fun _ => .inl rfl⟩
  · refine ⟨fun a b => ⟨?_, ?_⟩, fun hnone => .inr (compareField_eq_none hx hliteral hnone)⟩
    · rintro ⟨rfl, rfl⟩
      cases hx.trans hliteral.symm
    · rintro ⟨rfl, rfl⟩
      cases hx.trans hliteral.symm

end Soundness

/-- Trees with a child that is followed by a heavier one than five, or golden ones. -/
def heavyRequest : Request where
  groups := [⟨[⟨.ofText "Children.Next.Weight", .greater, .str "5", .and⟩,
    ⟨.ofText "tier", .equal, .enum "gold", .or⟩], .and⟩]

/-- Whether null is tested. -/
def Step.testsNull : Step → Bool
  | searched _ => false
  | tested _ v => v.isNull

theorem Step.eq_tested_of_testsNull {step : Step} (h : step.testsNull = true) :
    ∃ test, step = .tested test .null := by
  cases step with
  | searched v => cases h
  | tested test v =>
    cases v with
    | null => exact ⟨test, rfl⟩
    | _ => cases h

/-- A twig without weight or anything after it. -/
def twig : Value :=
  .record [("label", .str "twig"), ("weight", .null), ("tier", .enum "Bronze"),
    ("children", .list []), ("next", .null)]

/-- A tree with two twigs, of which one is followed by a twig. -/
def branch : Value :=
  .record [("label", .str "branch"), ("weight", .int ⟨7, by decide, by decide⟩),
    ("tier", .enum "Silver"), ("next", .null),
    ("children", .list [twig, .record [("label", .str "leaf"), ("weight", .null),
      ("tier", .enum "Gold"), ("children", .list []), ("next", twig)]])]

theorem conforms_twig : Conforms Sample.catalog (.record .node) twig := by
  refine .record fun f hf => ?_
  simp only [Sample.catalog, Sample.fields, List.mem_cons, List.not_mem_nil, or_false] at hf
  rcases hf with rfl | rfl | rfl | rfl | rfl
  · exact .string _
  · exact .null _
  · exact .enum _ _
  · exact .list (by simp)
  · exact .null _

theorem conforms_branch : Conforms Sample.catalog (.record .node) branch := by
  have hleaf : Conforms Sample.catalog (.record .node) (.record [("label", .str "leaf"),
      ("weight", .null), ("tier", .enum "Gold"), ("children", .list []), ("next", twig)]) := by
    refine .record fun f hf => ?_
    simp only [Sample.catalog, Sample.fields, List.mem_cons, List.not_mem_nil, or_false] at hf
    rcases hf with rfl | rfl | rfl | rfl | rfl
    · exact .string _
    · exact .null _
    · exact .enum _ _
    · exact .list (by simp)
    · exact .some conforms_twig
  refine .record fun f hf => ?_
  simp only [Sample.catalog, Sample.fields, List.mem_cons, List.not_mem_nil, or_false] at hf
  rcases hf with rfl | rfl | rfl | rfl | rfl
  · exact .string _
  · exact .some (.int _ _)
  · exact .enum _ _
  · refine .list fun item hitem => ?_
    rcases List.mem_cons.1 hitem with rfl | hitem
    · exact conforms_twig
    · cases List.mem_singleton.1 hitem
      exact hleaf
  · exact .null _

/-- The twig that nothing comes after is tested by a null weight. -/
theorem compile_sound_branch :
    ∃ condition test c, heavyRequest.compile Sample.catalog .node .standard = .ok condition ∧
      Conforms Sample.catalog (.record .node) branch ∧
      .tested test .null ∈ (condition.evaluate branch).2 ∧
      c ∈ heavyRequest.groups.flatMap (·.clauses) ∧
      ∃ type ∈ Sample.catalog.walked [] (.record .node) c.path.segments,
        type.isOptional = true := by
  obtain ⟨condition, h, hany⟩ := exists_ok_of_any
    (show (heavyRequest.compile Sample.catalog .node .standard).toOption.any (fun condition =>
      (condition.evaluate branch).2.any Step.testsNull) = true by decide +kernel)
  obtain ⟨step, hstep, hnull⟩ := List.any_eq_true.1 hany
  obtain ⟨test, rfl⟩ := Step.eq_tested_of_testsNull hnull
  obtain ⟨c, hc, r, coerced, hwithin⟩ :=
    (compile_sound h conforms_branch).2.2.1 test .null hstep
  exact ⟨condition, test, c, h, conforms_branch, hstep, hc, hwithin.nullable rfl⟩

end RecordFilter
