import RecordFilter.Proofs.Blocks
import RecordFilter.Samples

/-!
# Compiled requests read directly

What a compiled request says of a value can be read off its resolved clauses, without compiling
them. The clauses of a group are cut into runs. A direct clause tests the value at the end of its
chain; a run through a collection asks for an element of which its clauses, followed on from there,
are true in the same way. Runs are joined from left to right, each as its first clause is, and
groups likewise.

`holds_eq_reading`: a compiled request holds of exactly the values of which it is true when read.
-/

namespace RecordFilter

variable {ρ : Type} {catalog : Catalog ρ}

/-! ## The reading -/

/-- Truth values joined from left to right without precedence. The first one's combinator joins it
to nothing, and none at all are true. -/
def joinValues : List (Combinator × Bool) → Bool
  | [] => true
  | (_, first) :: rest => rest.foldl (fun before next => next.1.apply before next.2) first

/-- Whether a value of a type passes the test of a clause. -/
def Clause.accepts (catalog : Catalog ρ) (c : Clause) (type : FieldType ρ) (v : Value) : Bool :=
  match c.test catalog type with
  | .ok test => test.passes v
  | .error _ => false

mutual

/-- What clauses say of a value: the truth values of their runs, joined. -/
def reading (catalog : Catalog ρ) (clauses : List (Placed ρ)) (v : Value) : Bool :=
  joinValues ((runs clauses).attach.map fun run => runReading catalog run.1 v)
termination_by (layers clauses, 1)
decreasing_by
  have := layers_le_of_mem_runs run.2
  rw [Prod.lex_def]
  simp only
  omega

/-- What a run says of a value, with the combinator of its first clause. No run is empty. -/
def runReading (catalog : Catalog ρ) : List (Placed ρ) → Value → Combinator × Bool
  | [], _ => (.standard, true)
  | (c, .leaf chain type) :: _, v => (c.combinator, c.accepts catalog type (v.walk chain))
  | (c, .within chain element inner) :: run, v =>
    (c.combinator,
      match v.walk chain with
      | .list items =>
        items.any fun item => reading catalog (enter ((c, .within chain element inner) :: run)) item
      | _ => false)
termination_by run => (layers run, 0)
decreasing_by
  have := layers_enter_lt c chain element inner run
  rw [Prod.lex_def]
  exact .inl this

end

theorem reading_eq (clauses : List (Placed ρ)) (v : Value) :
    reading catalog clauses v =
      joinValues ((runs clauses).map fun run => runReading catalog run v) := by
  rw [reading, List.attach_map_val (f := fun run => runReading catalog run v)]

/-! ## Conditions agree with the reading -/

theorem map_eq_map_of_forall₂ {α β γ δ : Type} {R : α → β → Prop} {S : β → γ → Prop} {f : α → δ}
    {g : γ → δ} {as : List α} {bs : List β} {cs : List γ} (hR : List.Forall₂ R as bs)
    (hS : List.Forall₂ S bs cs) (h : ∀ a ∈ as, ∀ b c, R a b → S b c → g c = f a) :
    cs.map g = as.map f := by
  induction hR generalizing cs with
  | nil => cases hS; rfl
  | cons hab _ ih =>
    obtain _ | ⟨hbc, hS⟩ := hS
    rw [List.forall_mem_cons] at h
    rw [List.map_cons, List.map_cons, h.1 _ _ hab hbc, ih hS h.2]

theorem Condition.holds_foldl_join (v : Value) (rest : List (Combinator × Condition))
    (first : Condition) :
    (rest.foldl (fun before next => join next.1 before next.2) first).holds v =
      (rest.map fun c => (c.1, c.2.holds v)).foldl
        (fun before next => next.1.apply before next.2) (first.holds v) := by
  induction rest generalizing first with
  | nil => rfl
  | cons c rest ih => exact ih (join c.1 first c.2)

theorem Condition.holds_joined (conditions : List (Combinator × Condition)) (v : Value) :
    (joined conditions).holds v = joinValues (conditions.map fun c => (c.1, c.2.holds v)) := by
  cases conditions with
  | nil => rfl
  | cons first rest => exact holds_foldl_join v rest first.2

theorem Clause.accepts_of_test {c : Clause} {type : FieldType ρ} {test : ValueTest}
    (h : c.test catalog type = .ok test) (v : Value) :
    c.accepts catalog type v = test.passes v := by
  rw [accepts, h]

/-- A block holds of the values of which its run is true when read, if the blocks inside it do. -/
theorem Block.holds_of_ofRun {run : List (Placed ρ)} {block : Block ρ}
    {compiled : Combinator × Condition} (hrun : OfRun run block)
    (h : compile catalog block = .ok compiled)
    (inside : ∀ {inner}, layers (enter run) < layers run →
      compileAll catalog (ofClauses (enter run)) = .ok inner →
      ∀ v, inner.holds v = reading catalog (enter run) v) (v : Value) :
    (compiled.1, compiled.2.holds v) = runReading catalog run v := by
  cases hrun with
  | direct c chain type =>
    obtain ⟨test, ht, rfl⟩ := compile_direct_eq_ok h
    rw [runReading, Clause.accepts_of_test ht]
    rfl
  | shared c chain element inner run =>
    obtain ⟨condition, hc, rfl⟩ := compile_shared_eq_ok h
    have hholds := inside (layers_enter_lt c chain element inner run) hc
    rw [runReading, ← funext hholds]
    rfl

/-- What clauses compile to holds of the values of which they are true when read. -/
theorem Block.holds_of_compileAll {clauses : List (Placed ρ)} {condition : Condition}
    (h : compileAll catalog (ofClauses clauses) = .ok condition) (v : Value) :
    condition.holds v = reading catalog clauses v := by
  -- Entering a run leaves fewer layers, so the inner blocks are covered by the induction.
  induction hn : layers clauses using Nat.strong_induction_on generalizing clauses condition v with
  | _ n ih =>
    subst hn
    obtain ⟨conditions, hc, rfl⟩ := compileAll_eq_ok_iff.1 h
    rw [Condition.holds_joined, reading_eq,
      map_eq_map_of_forall₂ (forall₂_ofClauses clauses) hc fun run hmem block compiled hr hb =>
        holds_of_ofRun hr hb (fun hlt hi w =>
          ih _ (hlt.trans_le (layers_le_of_mem_runs hmem)) hi w rfl) v]

/-! ## Requests -/

/-- **Requests are read directly.** Where a request compiles, all its paths resolve and all its
tests can be made, and its condition holds of a value exactly when the request is true of it: the
readings of the groups that have clauses, joined from left to right as the groups are. -/
theorem holds_eq_reading {root : ρ} {limits : Limits} {request : Request} {condition : Condition}
    (h : request.compile catalog root limits = .ok condition) :
    ∃ placed, request.place catalog root limits.maxPathDepth = .ok placed ∧
      (∀ p ∈ placed, ∀ q ∈ p.2, ∃ test, q.1.test catalog q.2.leafType = .ok test) ∧
      ∀ v, condition.holds v = joinValues (placed.map fun p => (p.1, reading catalog p.2 v)) := by
  obtain ⟨placed, hp, conditions, hc, rfl⟩ := Request.place_of_compile h
  refine ⟨placed, hp, ?_, ?_⟩
  · intro p hmem
    obtain ⟨compiled, -, hcompiled⟩ : ∃ compiled : Combinator × Condition, compiled.1 = p.1 ∧
        Block.compileAll catalog (Block.ofClauses p.2) = .ok compiled.2 := by
      obtain ⟨i, hi, rfl⟩ := List.mem_iff_getElem.1 hmem
      exact ⟨_, hc.get hi (hc.length_eq ▸ hi)⟩
    exact Block.exists_compileAll_ofClauses_ok_iff.1 ⟨_, hcompiled⟩
  · intro v
    rw [Condition.holds_joined, map_eq_map_of_forall₂ (List.forall₂_same.2 fun _ _ => rfl) hc]
    rintro p - _ compiled rfl ⟨hcombinator, hcompiled⟩
    rw [hcombinator, Block.holds_of_compileAll hcompiled]

/-- Customers called Ada, or with one order in which some item is a lamp and sold more than twice
and whose total is below a hundred, and who are not tagged `vip`; or those without an address. -/
def lampRequest : Request where
  groups := [
    .empty,
    { clauses := [
        ⟨.ofText "Name", .equal, .str "ada", .and⟩,
        ⟨.ofText "Orders.Items.Sku", .contains, .str "lamp", .or⟩,
        ⟨.ofText "orders.items.quantity", .greater, .str "2", .and⟩,
        ⟨.ofText "ORDERS.total", .less, .str "100", .and⟩,
        ⟨.ofText "tags", .notEqual, .str "vip", .and⟩]
      combinator := .or },
    .empty,
    { clauses := [⟨.ofText "address", .equal, .null, .or⟩], combinator := .or }]

/-- Bob bought three lamps in a small order. -/
def lampBuyer : Value :=
  let lamps := Sample.item.complete
    [("sku", .str "LAMP-1"), ("quantity", .int ⟨3, by decide, by decide⟩)]
  let order := Sample.order.complete [("total", .float (.ofInt 60)), ("items", .list [lamps])]
  Sample.customer.complete
    [("name", .str "Bob"), ("orders", .list [order]), ("tags", .list [.str "new"])]

theorem holds_eq_reading_lampRequest :
    ∃ condition placed, lampRequest.compile Sample.catalog .customer .standard = .ok condition ∧
      lampRequest.place Sample.catalog .customer Limits.standard.maxPathDepth = .ok placed ∧
      condition.holds lampBuyer = true ∧
      joinValues (placed.map fun p => (p.1, reading Sample.catalog p.2 lampBuyer)) = true := by
  obtain ⟨condition, h, hb⟩ := exists_ok_of_any
    (show (lampRequest.compile Sample.catalog .customer .standard).toOption.any
      (·.holds lampBuyer) = true by decide +kernel)
  obtain ⟨placed, hp, -, hholds⟩ := holds_eq_reading h
  exact ⟨condition, placed, h, hp, hb, hholds lampBuyer ▸ hb⟩

end RecordFilter
