import RecordFilter.Proofs.FirstError
import RecordFilter.Proofs.Runs

/-!
# How requests compile, layer by layer

A request compiles when each of its groups does, a group when its paths resolve and its blocks
compile, and a block when the tests of its clauses can be made. Here every layer gets one equation
or equivalence that says so, and the layers above it use nothing else.
-/

namespace RecordFilter

variable {ρ : Type} {catalog : Catalog ρ}

/-! ## Clauses -/

/-- The test that a clause makes of values of a type. -/
def Clause.test (catalog : Catalog ρ) (c : Clause) (type : FieldType ρ) :
    Except FilterError ValueTest := do
  let coerced ← c.literal.coerce catalog type
  ValueTest.build catalog type coerced c.operator

theorem Clause.test_eq_ok_iff {c : Clause} {type : FieldType ρ} {test : ValueTest} :
    c.test catalog type = .ok test ↔ ∃ coerced, c.literal.coerce catalog type = .ok coerced ∧
      ValueTest.build catalog type coerced c.operator = .ok test :=
  bind_eq_ok_iff

namespace Block

theorem compileTest_eq (c : Clause) (chain : List String) (type : FieldType ρ) :
    compileTest catalog chain type c.operator c.literal =
      (c.test catalog type).map (Condition.test chain) := by
  unfold compileTest Clause.test
  cases c.literal.coerce catalog type with
  | error e => rfl
  | ok coerced => cases ValueTest.build catalog type coerced c.operator <;> rfl

/-! ## Blocks -/

theorem compileEach_eq_mapM (blocks : List (Block ρ)) :
    compileEach catalog blocks = blocks.mapM (compile catalog) := by
  induction blocks with
  | nil => rfl
  | cons block blocks ih => rw [compileEach, ih, List.mapM_cons]

theorem compile_direct (c : Clause) (chain : List String) (type : FieldType ρ) :
    compile catalog (.direct c.combinator chain type c.operator c.literal) =
      (c.test catalog type).map fun test => (c.combinator, .test chain test) := by
  rw [compile, compileTest_eq]
  cases c.test catalog type <;> rfl

theorem compile_shared (combinator : Combinator) (chain : List String)
    (blocks : List (Block ρ)) :
    compile catalog (.shared combinator chain blocks) =
      (compileAll catalog blocks).map fun inner => (combinator, .someElement chain inner) := by
  rw [compile, compileAll]
  cases blocks.forM (check catalog) with
  | error e => rfl
  | ok _ => cases compileEach catalog blocks <;> rfl

theorem compile_direct_eq_ok {c : Clause} {chain : List String} {type : FieldType ρ}
    {compiled : Combinator × Condition}
    (h : compile catalog (.direct c.combinator chain type c.operator c.literal) = .ok compiled) :
    ∃ test, c.test catalog type = .ok test ∧ compiled = (c.combinator, .test chain test) := by
  rw [compile_direct] at h
  obtain ⟨test, ht, rfl⟩ := map_eq_ok_iff.1 h
  exact ⟨test, ht, rfl⟩

theorem compile_shared_eq_ok {combinator : Combinator} {chain : List String}
    {blocks : List (Block ρ)} {compiled : Combinator × Condition}
    (h : compile catalog (.shared combinator chain blocks) = .ok compiled) :
    ∃ inner, compileAll catalog blocks = .ok inner ∧
      compiled = (combinator, .someElement chain inner) := by
  rw [compile_shared] at h
  obtain ⟨inner, hi, rfl⟩ := map_eq_ok_iff.1 h
  exact ⟨inner, hi, rfl⟩

/-- A block that compiles is not refused beforehand. -/
theorem check_of_compile {block : Block ρ} {compiled : Combinator × Condition}
    (h : compile catalog block = .ok compiled) : check catalog block = .ok () := by
  cases block with
  | direct combinator chain type operator literal =>
    obtain ⟨condition, hc, -⟩ := bind_eq_ok_iff.1 h
    rw [check, hc]
    rfl
  | shared combinator chain blocks => rfl

/-- Blocks compile when each of them does. -/
theorem compileAll_eq_ok_iff {blocks : List (Block ρ)} {condition : Condition} :
    compileAll catalog blocks = .ok condition ↔
      ∃ conditions, List.Forall₂ (fun block compiled => compile catalog block = .ok compiled)
        blocks conditions ∧ condition = .joined conditions := by
  have heach {conditions} : compileEach catalog blocks = .ok conditions ↔
      List.Forall₂ (fun block compiled => compile catalog block = .ok compiled)
        blocks conditions := by
    rw [compileEach_eq_mapM, mapM_eq_ok_iff]
  constructor
  · intro h
    obtain ⟨-, -, h⟩ := bind_eq_ok_iff.1 h
    obtain ⟨conditions, hc, h⟩ := bind_eq_ok_iff.1 h
    cases h
    exact ⟨conditions, heach.1 hc, rfl⟩
  · rintro ⟨conditions, hc, rfl⟩
    have hchecks : ∀ block ∈ blocks, check catalog block = .ok () := by
      intro block hb
      obtain ⟨compiled, h⟩ := exists_mapM_eq_ok_iff.1 ⟨_, mapM_eq_ok_iff.2 hc⟩ block hb
      exact check_of_compile h
    exact bind_eq_ok_iff.2 ⟨(), forM_eq_ok_iff.2 hchecks,
      bind_eq_ok_iff.2 ⟨conditions, heach.2 hc, rfl⟩⟩

theorem exists_compileAll_ok_iff {blocks : List (Block ρ)} :
    (∃ condition, compileAll catalog blocks = .ok condition) ↔
      ∀ block ∈ blocks, ∃ compiled, compile catalog block = .ok compiled := by
  rw [← exists_mapM_eq_ok_iff]
  constructor
  · rintro ⟨condition, h⟩
    obtain ⟨conditions, hc, -⟩ := compileAll_eq_ok_iff.1 h
    exact ⟨conditions, mapM_eq_ok_iff.2 hc⟩
  · rintro ⟨conditions, hc⟩
    exact ⟨_, compileAll_eq_ok_iff.2 ⟨conditions, mapM_eq_ok_iff.1 hc, rfl⟩⟩

theorem exists_compile_direct_ok_iff {c : Clause} {chain : List String} {type : FieldType ρ} :
    (∃ compiled, compile catalog (.direct c.combinator chain type c.operator c.literal) =
        .ok compiled) ↔ ∃ test, c.test catalog type = .ok test := by
  rw [compile_direct]
  cases c.test catalog type <;> simp [Except.map]

theorem exists_compile_shared_ok_iff {combinator : Combinator} {chain : List String}
    {blocks : List (Block ρ)} :
    (∃ compiled, compile catalog (.shared combinator chain blocks) = .ok compiled) ↔
      ∀ block ∈ blocks, ∃ compiled, compile catalog block = .ok compiled := by
  rw [compile_shared, ← exists_compileAll_ok_iff]
  cases compileAll catalog blocks <;> simp [Except.map]

/-- A clause put in front of blocks adds the making of its own test to what has to succeed. -/
theorem forall_compile_insert_ok_iff (c : Clause) (r : Resolved ρ) (blocks : List (Block ρ)) :
    (∀ block ∈ insert c.combinator c.operator c.literal r blocks,
        ∃ compiled, compile catalog block = .ok compiled) ↔
      (∃ test, c.test catalog r.leafType = .ok test) ∧
        ∀ block ∈ blocks, ∃ compiled, compile catalog block = .ok compiled := by
  induction r generalizing blocks with
  | leaf chain type =>
    rw [insert, List.forall_mem_cons, exists_compile_direct_ok_iff]
    rfl
  | within chain element inner ih =>
    by_cases h : ∃ next members rest, blocks = .shared next chain members :: rest
    · obtain ⟨next, members, rest, rfl⟩ := h
      rw [insert_within_same, List.forall_mem_cons, List.forall_mem_cons,
        exists_compile_shared_ok_iff, exists_compile_shared_ok_iff, ih, and_assoc]
      rfl
    · rw [insert_within_other _ _ _ _ _ (by simpa using h), List.forall_mem_cons,
        exists_compile_shared_ok_iff, ih]
      simp [Resolved.leafType]

/-- Clauses compile together when the test of each of them can be made. -/
theorem exists_compileAll_ofClauses_ok_iff {clauses : List (Placed ρ)} :
    (∃ condition, compileAll catalog (ofClauses clauses) = .ok condition) ↔
      ∀ p ∈ clauses, ∃ test, p.1.test catalog p.2.leafType = .ok test := by
  rw [exists_compileAll_ok_iff]
  induction clauses with
  | nil => simp
  | cons p clauses ih =>
    rw [ofClauses_cons, forall_compile_insert_ok_iff, ih, List.forall_mem_cons]

end Block

/-! ## Groups and requests -/

/-- The clauses of a group with their paths resolved. -/
def Group.place (catalog : Catalog ρ) (root : ρ) (maxDepth : Nat) (g : Group) :
    Except FilterError (List (Placed ρ)) :=
  g.clauses.mapM fun c => (catalog.resolve maxDepth (.record root) c.path).map fun r => (c, r)

/-- The groups that have clauses. -/
def Request.filledGroups (request : Request) : List Group :=
  request.groups.filter fun g => !g.isEmpty

/-- The groups that have clauses, each with its combinator and its clauses placed. -/
def Request.place (catalog : Catalog ρ) (root : ρ) (maxDepth : Nat) (request : Request) :
    Except FilterError (List (Combinator × List (Placed ρ))) :=
  request.filledGroups.mapM fun g =>
    (g.place catalog root maxDepth).map fun clauses => (g.combinator, clauses)

theorem Group.compile_eq (root : ρ) (maxDepth : Nat) (g : Group) :
    g.compile catalog root maxDepth =
      g.place catalog root maxDepth >>= fun clauses =>
        Block.compileAll catalog (Block.ofClauses clauses) := by
  unfold Group.compile Group.place
  congr 2

namespace Request

variable {root : ρ} {limits : Limits} {request : Request}

theorem compile_of_lt (h : limits.maxClauses < request.clauseCount) :
    request.compile catalog root limits =
      .error (.limitExceeded .clauseCount limits.maxClauses) := by
  unfold compile
  rw [if_pos h]
  rfl

theorem compile_of_le (h : request.clauseCount ≤ limits.maxClauses) :
    request.compile catalog root limits =
      Except.map Condition.joined (request.filledGroups.mapM fun g =>
        (g.compile catalog root limits.maxPathDepth).map fun c => (g.combinator, c)) := by
  unfold compile
  rw [if_neg (Nat.not_lt.2 h)]
  simp only [bind_pure_comp]
  rfl

/-- A request that compiles is not too long. -/
theorem clauseCount_le_of_compile {condition : Condition}
    (h : request.compile catalog root limits = .ok condition) :
    request.clauseCount ≤ limits.maxClauses := by
  by_contra hlt
  rw [compile_of_lt (Nat.not_le.1 hlt)] at h
  cases h

/-- The paths of a request that compiles resolve, and the blocks of each of its groups compile. -/
theorem place_of_compile {condition : Condition}
    (h : request.compile catalog root limits = .ok condition) :
    ∃ placed, request.place catalog root limits.maxPathDepth = .ok placed ∧
      ∃ conditions, List.Forall₂ (fun p compiled => compiled.1 = p.1 ∧
          Block.compileAll catalog (Block.ofClauses p.2) = .ok compiled.2) placed conditions ∧
        condition = .joined conditions := by
  rw [compile_of_le (clauseCount_le_of_compile h)] at h
  obtain ⟨conditions, hc, rfl⟩ := map_eq_ok_iff.1 h
  have hsteps : (fun g : Group =>
        (g.compile catalog root limits.maxPathDepth).map fun c => (g.combinator, c)) =
      fun g => (g.place catalog root limits.maxPathDepth).map (fun clauses =>
        (g.combinator, clauses)) >>= fun p =>
          (Block.compileAll catalog (Block.ofClauses p.2)).map fun c => (p.1, c) := by
    funext g
    rw [Group.compile_eq]
    cases g.place catalog root limits.maxPathDepth <;> rfl
  rw [hsteps] at hc
  obtain ⟨placed, hp, hc⟩ := mapM_bind_eq_ok hc
  refine ⟨placed, hp, conditions, (mapM_eq_ok_iff.1 hc).imp ?_, rfl⟩
  intro p compiled h
  obtain ⟨c, hc, rfl⟩ := map_eq_ok_iff.1 h
  exact ⟨rfl, hc⟩

end Request

end RecordFilter
