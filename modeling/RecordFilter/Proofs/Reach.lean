import RecordFilter.Proofs.Following
import RecordFilter.Proofs.Reading

/-!
# What a path reaches

A path walks from a value through a type to values: through all elements of a list, through the
named field of a record, and to the value itself when no segments are left. Where a list was to be
expected and there is none, it reaches nothing; where a record was to be expected and there is
none, it goes on with null.

`holds_iff_reach`: a request of a single clause is true of a value exactly when one of the values
that its path reaches passes its test.
-/

namespace RecordFilter

variable {ρ : Type} {catalog : Catalog ρ}

namespace Catalog

/-- The values that a path reaches from a value that is seen as one of a type. -/
def reach (catalog : Catalog ρ) (v : Value) (type : FieldType ρ) (segments : List String) :
    List Value :=
  match _h : type.element? with
  | some element =>
    match v with
    | .list items => items.flatMap fun item => catalog.reach item element segments
    | _ => []
  | none =>
    match segments with
    | [] => [v]
    | segment :: segments =>
      match catalog.next? type segment with
      | some field => catalog.reach (v.get field.name) field.type segments
      | none => []
termination_by (segments.length, sizeOf type)
decreasing_by
  · exact .right _ (FieldType.sizeOf_element?_lt _h)
  · exact .left _ _ (Nat.lt_succ_self _)

/-- The collections that a path meets, list or not, after it has gone through a number of them. -/
def collections (catalog : Catalog ρ) (v : Value) (type : FieldType ρ) (segments : List String)
    (crossed : Nat) : List Value :=
  match _h : type.element? with
  | some element =>
    match crossed with
    | 0 => [v]
    | crossed + 1 =>
      match v with
      | .list items =>
        items.flatMap fun item => catalog.collections item element segments crossed
      | _ => []
  | none =>
    match segments with
    | [] => []
    | segment :: segments =>
      match catalog.next? type segment with
      | some field => catalog.collections (v.get field.name) field.type segments crossed
      | none => []
termination_by (segments.length, sizeOf type)
decreasing_by
  · exact .right _ (FieldType.sizeOf_element?_lt _h)
  · exact .left _ _ (Nat.lt_succ_self _)

/-! ## Steps of the walk -/

section Steps

variable {type element : FieldType ρ} {segment : String} {field : Field ρ}

theorem reach_of_element? (v : Value) (segments : List String)
    (h : type.element? = some element) :
    catalog.reach v type segments =
      (v.items?.getD []).flatMap fun item => catalog.reach item element segments := by
  rw [reach.eq_def]
  split
  · rename_i e he
    cases h.symm.trans he
    cases v <;> rfl
  · rename_i he
    cases h.symm.trans he

theorem reach_nil (v : Value) (h : type.element? = none) : catalog.reach v type [] = [v] := by
  rw [reach.eq_def]
  split
  · rename_i e he
    cases h.symm.trans he
  · rfl

theorem reach_cons (v : Value) (segments : List String) (h : type.element? = none)
    (hf : catalog.next? type segment = some field) :
    catalog.reach v type (segment :: segments) =
      catalog.reach (v.get field.name) field.type segments := by
  rw [reach.eq_def]
  split
  · rename_i e he
    cases h.symm.trans he
  · simp only [hf]

theorem collections_zero (v : Value) (segments : List String)
    (h : type.element? = some element) : catalog.collections v type segments 0 = [v] := by
  rw [collections.eq_def]
  split
  · rfl
  · rename_i he
    cases h.symm.trans he

theorem collections_succ (v : Value) (segments : List String) (crossed : Nat)
    (h : type.element? = some element) :
    catalog.collections v type segments (crossed + 1) =
      (v.items?.getD []).flatMap fun item =>
        catalog.collections item element segments crossed := by
  rw [collections.eq_def]
  split
  · rename_i e he
    cases h.symm.trans he
    cases v <;> rfl
  · rename_i he
    cases h.symm.trans he

theorem collections_cons (v : Value) (segments : List String) (crossed : Nat)
    (h : type.element? = none) (hf : catalog.next? type segment = some field) :
    catalog.collections v type (segment :: segments) crossed =
      catalog.collections (v.get field.name) field.type segments crossed := by
  rw [collections.eq_def]
  split
  · rename_i e he
    cases h.symm.trans he
  · simp only [hf]

end Steps

end Catalog

/-! ## Where the walk ends -/

/-- The values at the leaf of a resolved path. -/
def Resolved.leaves : Resolved ρ → Value → List Value
  | leaf chain _, v => [v.walk chain]
  | within chain _ inner, v => ((v.walk chain).items?.getD []).flatMap inner.leaves

theorem Resolved.leaves_behind (r : Resolved ρ) (name : String) (v : Value) :
    (r.behind name).leaves v = r.leaves (v.get name) := by
  cases r <;> rfl

namespace Catalog

/-- The resolved path leads to what the walk reaches. -/
theorem leaves_of_follow {segments : List String} {type : FieldType ρ} {r : Resolved ρ}
    (h : catalog.follow segments type = .ok r) (v : Value) :
    r.leaves v = catalog.reach v type segments := by
  induction segments, type using follow_induction generalizing r v with
  | element segments type element he ih =>
    rw [follow_of_element? _ he] at h
    obtain ⟨inner, hinner, rfl⟩ := map_eq_ok_iff.1 h
    rw [reach_of_element? _ _ he, ← funext fun item => ih hinner item]
    rfl
  | leaf type he =>
    rw [follow_nil he] at h
    cases h
    rw [reach_nil _ he]
    rfl
  | segment segment segments type he ih =>
    obtain ⟨field, inner, hf, hinner, rfl⟩ := exists_next?_of_follow he h
    rw [reach_cons _ _ he hf, inner.leaves_behind, ih field.type hinner]

/-- The walk goes on from each value that it has reached. -/
theorem reach_append {before : List String} {type : FieldType ρ} {r : Resolved ρ}
    (h : catalog.follow before type = .ok r) (v : Value) (after : List String) :
    catalog.reach v type (before ++ after) =
      (catalog.reach v type before).flatMap fun x => catalog.reach x r.leafType after := by
  induction before, type using follow_induction generalizing r v with
  | element segments type element he ih =>
    rw [follow_of_element? _ he] at h
    obtain ⟨inner, hinner, rfl⟩ := map_eq_ok_iff.1 h
    rw [reach_of_element? _ _ he, reach_of_element? _ _ he, List.flatMap_assoc,
      funext fun item => ih hinner item]
    rfl
  | leaf type he =>
    rw [follow_nil he] at h
    cases h
    rw [reach_nil _ he, List.flatMap_singleton]
    rfl
  | segment segment segments type he ih =>
    obtain ⟨field, inner, hf, hinner, rfl⟩ := exists_next?_of_follow he h
    rw [List.cons_append, reach_cons _ _ he hf, reach_cons _ _ he hf, ih field.type hinner,
      Resolved.leafType_behind]

/-- Where no collection is met any more, the walk reaches a single value. -/
theorem exists_reach_eq_singleton {segments : List String} {type : FieldType ρ} {r : Resolved ρ}
    (h : catalog.follow segments type = .ok r) (hd : r.depth = 0) (v : Value) :
    ∃ x, catalog.reach v type segments = [x] := by
  rw [← leaves_of_follow h]
  cases r with
  | leaf chain leafType => exact ⟨v.walk chain, rfl⟩
  | within chain element inner => cases hd

/-- Where no collection is met any more, null leads to null. -/
theorem reach_null {segments : List String} {type : FieldType ρ} {r : Resolved ρ}
    (h : catalog.follow segments type = .ok r) (hd : r.depth = 0) :
    catalog.reach .null type segments = [.null] := by
  rw [← leaves_of_follow h]
  cases r with
  | leaf chain leafType => rw [Resolved.leaves, Value.walk_null]
  | within chain element inner => cases hd

/-- A path with a place where every collection it meets is empty, or is no list at all, reaches
nothing. -/
theorem reach_eq_nil {segments : List String} {type : FieldType ρ} {r : Resolved ρ}
    (h : catalog.follow segments type = .ok r) {v : Value} {crossed : Nat}
    (hd : crossed < r.depth)
    (hempty : ∀ c ∈ catalog.collections v type segments crossed, c.items?.getD [] = []) :
    catalog.reach v type segments = [] := by
  induction segments, type using follow_induction generalizing r v crossed with
  | element segments type element he ih =>
    rw [follow_of_element? _ he] at h
    obtain ⟨inner, hinner, rfl⟩ := map_eq_ok_iff.1 h
    rw [reach_of_element? _ _ he]
    cases crossed with
    | zero =>
      rw [collections_zero _ _ he] at hempty
      rw [hempty v List.mem_cons_self]
      rfl
    | succ crossed =>
      rw [collections_succ _ _ _ he] at hempty
      refine List.flatMap_eq_nil_iff.2 fun item hitem => ?_
      exact ih hinner (Nat.lt_of_succ_lt_succ hd) fun c hc =>
        hempty c (List.mem_flatMap_of_mem hitem hc)
  | leaf type he =>
    rw [follow_nil he] at h
    cases h
    cases hd
  | segment segment segments type he ih =>
    obtain ⟨field, inner, hf, hinner, rfl⟩ := exists_next?_of_follow he h
    rw [Resolved.depth_behind] at hd
    rw [collections_cons _ _ _ he hf] at hempty
    rw [reach_cons _ _ he hf]
    exact ih field.type hinner hd hempty

end Catalog

/-! ## Clauses -/

/-- A single clause says of a value that one of the values at its leaf passes its test. -/
theorem reading_singleton (c : Clause) (r : Resolved ρ) (v : Value) :
    reading catalog [(c, r)] v = (r.leaves v).any (c.accepts catalog r.leafType) := by
  induction r generalizing v with
  | leaf chain type =>
    rw [reading_eq, runs_singleton, Resolved.leaves, List.any_cons, List.any_nil, Bool.or_false]
    show (runReading catalog [(c, .leaf chain type)] v).2 = _
    rw [runReading]
    rfl
  | within chain element inner ih =>
    rw [reading_eq, runs_singleton, Resolved.leaves, List.any_flatMap]
    show (runReading catalog [(c, .within chain element inner)] v).2 = _
    rw [runReading]
    show (match v.walk chain with
      | .list items => items.any fun item => reading catalog [(c, inner)] item
      | _ => false) = _
    rw [funext ih]
    cases v.walk chain <;> rfl

/-- A request of a single clause has a single group with clauses. -/
theorem Request.filledGroups_of_single {request : Request} {c : Clause}
    (h : (request.groups.flatMap fun g => g.clauses) = [c]) :
    ∃ g, request.filledGroups = [g] ∧ g.clauses = [c] := by
  obtain ⟨groups⟩ := request
  unfold filledGroups
  dsimp only at h ⊢
  induction groups with
  | nil => cases h
  | cons g groups ih =>
    obtain ⟨clauses, combinator⟩ := g
    cases clauses with
    | nil => exact ih h
    | cons c' clauses =>
      rw [List.flatMap_cons, List.cons_append, List.cons.injEq, List.append_eq_nil_iff] at h
      obtain ⟨rfl, rfl, hrest⟩ := h
      have hempty : groups.filter (fun g => !g.isEmpty) = [] := by
        rw [List.filter_eq_nil_iff]
        intro g hg
        simp [Group.isEmpty, List.flatMap_eq_nil_iff.1 hrest g hg]
      refine ⟨⟨[c'], combinator⟩, ?_, rfl⟩
      rw [List.filter_cons, hempty]
      rfl

/-- A request of a single clause compiles to a condition that its reading agrees with. -/
theorem Request.holds_of_single {root : ρ} {limits : Limits} {request : Request} {c : Clause}
    {condition : Condition} (hc : (request.groups.flatMap fun g => g.clauses) = [c])
    (h : request.compile catalog root limits = .ok condition) :
    ∃ r test, catalog.resolve limits.maxPathDepth (.record root) c.path = .ok r ∧
      c.test catalog r.leafType = .ok test ∧
      ∀ v, condition.holds v = (r.leaves v).any test.passes := by
  obtain ⟨placed, hp, conditions, hcs, rfl⟩ := place_of_compile h
  obtain ⟨g, hg, hclauses⟩ := filledGroups_of_single hc
  rw [place, hg, mapM_eq_ok_iff] at hp
  obtain _ | ⟨hplace, _ | _⟩ := hp
  obtain ⟨clauses, hmap, rfl⟩ := map_eq_ok_iff.1 hplace
  rw [Group.place, hclauses, mapM_eq_ok_iff] at hmap
  obtain _ | ⟨hresolve, _ | _⟩ := hmap
  obtain ⟨r, hr, rfl⟩ := map_eq_ok_iff.1 hresolve
  obtain _ | ⟨⟨hcombinator, hcompiled⟩, _ | _⟩ := hcs
  obtain ⟨test, htest⟩ := Block.exists_compileAll_ofClauses_ok_iff.1 ⟨_, hcompiled⟩ (c, r)
    List.mem_cons_self
  refine ⟨r, test, hr, htest, fun v => ?_⟩
  rw [Condition.holds_joined]
  show Condition.holds _ v = _
  rw [Block.holds_of_compileAll hcompiled, reading_singleton,
    funext (Clause.accepts_of_test htest)]

/-- **A clause asks what its path reaches.** The condition of a request of a single clause holds of
a value exactly when some value that the path reaches from it passes the test that operator and
literal make of the path's leaf type. Where each collection that the path meets at one place is
null or empty, it does not hold; and from a null record on, the path reaches a null leaf, unless it
meets another collection. -/
theorem holds_iff_reach {root : ρ} {limits : Limits} {request : Request} {c : Clause}
    {condition : Condition} (hc : (request.groups.flatMap fun g => g.clauses) = [c])
    (h : request.compile catalog root limits = .ok condition) :
    ∃ r coerced test, catalog.resolve limits.maxPathDepth (.record root) c.path = .ok r ∧
      c.literal.coerce catalog r.leafType = .ok coerced ∧
      ValueTest.build catalog r.leafType coerced c.operator = .ok test ∧
      (∀ v, condition.holds v = true ↔
        ∃ x ∈ catalog.reach v (.record root) c.path.segments, test.passes x = true) ∧
      (∀ v crossed, crossed < r.depth →
        (∀ x ∈ catalog.collections v (.record root) c.path.segments crossed,
          x = .null ∨ x = .list []) → condition.holds v = false) ∧
      (∀ v before after prior, c.path.segments = before ++ after →
        catalog.follow before (.record root) = .ok prior → prior.depth = r.depth →
        .null ∈ catalog.reach v (.record root) before →
        .null ∈ catalog.reach v (.record root) c.path.segments) := by
  obtain ⟨r, test, hr, htest, hholds⟩ := Request.holds_of_single hc h
  obtain ⟨coerced, hcoerced, hbuild⟩ := Clause.test_eq_ok_iff.1 htest
  have hfollow := Catalog.follow_of_resolve hr
  have hreach : ∀ v, condition.holds v =
      (catalog.reach v (.record root) c.path.segments).any test.passes := by
    intro v
    rw [hholds, Catalog.leaves_of_follow hfollow]
  refine ⟨r, coerced, test, hr, hcoerced, hbuild, ?_, ?_, ?_⟩
  · intro v
    rw [hreach, List.any_eq_true]
  · intro v crossed hd hempty
    rw [hreach, Catalog.reach_eq_nil hfollow hd fun x hx => by
      rcases hempty x hx with rfl | rfl <;> rfl]
    rfl
  · intro v before after prior hsplit hprior hd hnull
    rw [hsplit, Catalog.follow_append hprior] at hfollow
    obtain ⟨next, hnext, rfl⟩ := map_eq_ok_iff.1 hfollow
    rw [Resolved.depth_andThen] at hd
    rw [hsplit, Catalog.reach_append hprior]
    refine List.mem_flatMap.2 ⟨.null, hnull, ?_⟩
    rw [Catalog.reach_null hnext (by omega)]
    exact List.mem_singleton_self _

/-- Trees with a grandchild whose successor does not weigh five. -/
def successorRequest : Request where
  groups := [
    .empty,
    ⟨[⟨.ofText "Nodes.Children.Next.Weight", .notEqual, .str "5", .or⟩], .or⟩,
    .empty]

/-- A grandchild without a successor is reached as a null weight, which is not five. -/
theorem holds_iff_reach_successor :
    ∃ condition test, successorRequest.compile Sample.catalog .everything .standard =
        .ok condition ∧
      ∃ x ∈ Sample.catalog.reach (.record [("nodes", .list [.record [("children", .list [])],
          .record [("children", .list [.record [("next", .null)]])]])])
          (.record .everything) ["Nodes", "Children", "Next", "Weight"],
        ValueTest.passes test x = true := by
  obtain ⟨condition, h, hv⟩ := exists_ok_of_any
    (show (successorRequest.compile Sample.catalog .everything .standard).toOption.any
      (·.holds (.record [("nodes", .list [.record [("children", .list [])],
        .record [("children", .list [.record [("next", .null)]])]])])) = true by decide +kernel)
  obtain ⟨r, coerced, test, -, -, -, hiff, -⟩ := holds_iff_reach rfl h
  exact ⟨condition, test, h, (hiff _).1 hv⟩

end RecordFilter
