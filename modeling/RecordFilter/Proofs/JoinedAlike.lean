import RecordFilter.Proofs.Reach
import RecordFilter.Proofs.Refusal

/-!
# Groups whose clauses are joined alike

Clauses that share a collection ask for one element together, and alone each asks for an element of
its own. Where all clauses of a group are alternatives this makes no difference, since an element
for one of them is an element for the run, at any depth. Where all of them are demanded, sharing
asks for more; and where no two neighbours share a collection, it asks for the same.

`group_joined_alike` says so of a compiled request with a single group.
-/

namespace RecordFilter

variable {ρ : Type} {catalog : Catalog ρ}

/-! ## Joining alike -/

theorem foldl_apply_or {rest : List (Combinator × Bool)} (h : ∀ next ∈ rest, next.1 = .or)
    (first : Bool) :
    rest.foldl (fun before next => next.1.apply before next.2) first =
      (first || rest.any (·.2)) := by
  induction rest generalizing first with
  | nil => exact (Bool.or_false first).symm
  | cons next rest ih =>
    obtain ⟨hnext, hrest⟩ := List.forall_mem_cons.1 h
    rw [List.foldl_cons, ih hrest, hnext, Combinator.apply_or, List.any_cons, Bool.or_assoc]

theorem foldl_apply_and {rest : List (Combinator × Bool)} (h : ∀ next ∈ rest, next.1 = .and)
    (first : Bool) :
    rest.foldl (fun before next => next.1.apply before next.2) first =
      (first && rest.all (·.2)) := by
  induction rest generalizing first with
  | nil => exact (Bool.and_true first).symm
  | cons next rest ih =>
    obtain ⟨hnext, hrest⟩ := List.forall_mem_cons.1 h
    rw [List.foldl_cons, ih hrest, hnext, Combinator.apply_and, List.all_cons, Bool.and_assoc]

/-- Alternatives are true when one of them is, or when there are none. -/
theorem joinValues_or {values : List (Combinator × Bool)}
    (h : ∀ next ∈ values.tail, next.1 = .or) :
    joinValues values = true ↔ values = [] ∨ ∃ value ∈ values, value.2 = true := by
  cases values with
  | nil => simp [joinValues]
  | cons first rest =>
    rw [List.tail_cons] at h
    rw [joinValues, foldl_apply_or h]
    simp

/-- Demands are true when all of them are. -/
theorem joinValues_and {values : List (Combinator × Bool)}
    (h : ∀ next ∈ values.tail, next.1 = .and) :
    joinValues values = true ↔ ∀ value ∈ values, value.2 = true := by
  cases values with
  | nil => simp [joinValues]
  | cons first rest =>
    rw [List.tail_cons] at h
    rw [joinValues, foldl_apply_and h]
    simp

/-- All clauses but the first are joined to the ones before in one way. -/
def JoinedBy (k : Combinator) (clauses : List (Placed ρ)) : Prop :=
  ∀ p ∈ clauses.tail, p.1.combinator = k

namespace JoinedBy

variable {k : Combinator} {clauses run : List (Placed ρ)}

/-- Inside a run and from one run to the next, clauses are joined as they are in all. -/
theorem of_runs {rest : List (List (Placed ρ))} (h : JoinedBy k clauses)
    (hr : runs clauses = run :: rest) :
    JoinedBy k run ∧ ∀ later ∈ rest, ∀ p ∈ later, p.1.combinator = k := by
  have hne : run ≠ [] := List.ne_nil_of_mem_splitBy (show run ∈ runs clauses by simp [hr])
  obtain ⟨p, run, rfl⟩ := List.exists_cons_of_ne_nil hne
  have hclauses := flatten_runs clauses
  rw [hr, List.flatten_cons, List.cons_append] at hclauses
  rw [JoinedBy, ← hclauses, List.tail_cons, List.forall_mem_append] at h
  exact ⟨h.1, fun later hlater p hp => h.2 p (List.mem_flatten_of_mem hlater hp)⟩

theorem of_mem_runs (h : JoinedBy k clauses) (hr : run ∈ runs clauses) : JoinedBy k run := by
  obtain ⟨first, rest, hruns⟩ := List.exists_cons_of_ne_nil (List.ne_nil_of_mem hr)
  obtain ⟨hfirst, hrest⟩ := h.of_runs hruns
  rw [hruns] at hr
  rcases List.mem_cons.1 hr with rfl | hr
  · exact hfirst
  · exact fun p hp => hrest run hr p (List.mem_of_mem_tail hp)

theorem enter (h : JoinedBy k run) : JoinedBy k (enter run) := by
  unfold JoinedBy RecordFilter.enter
  rw [← List.map_tail]
  intro p hp
  obtain ⟨q, hq, rfl⟩ := List.mem_map.1 hp
  exact h q hq

/-- A run is joined as its first clause is. -/
theorem runReading_fst (p : Placed ρ) (run : List (Placed ρ)) (v : Value) :
    (runReading catalog (p :: run) v).1 = p.1.combinator := by
  obtain ⟨c, r⟩ := p
  cases r <;> rw [runReading]

theorem readings (h : JoinedBy k clauses) (v : Value) :
    ∀ value ∈ ((runs clauses).map fun run => runReading catalog run v).tail, value.1 = k := by
  cases hr : runs clauses with
  | nil => simp
  | cons first rest =>
    rw [List.map_cons, List.tail_cons, List.forall_mem_map]
    intro run hrun
    have hne : run ≠ [] := List.ne_nil_of_mem_splitBy
      (show run ∈ runs clauses by rw [hr]; exact List.mem_cons_of_mem _ hrun)
    obtain ⟨p, run, rfl⟩ := List.exists_cons_of_ne_nil hne
    rw [runReading_fst]
    exact (h.of_runs hr).2 _ hrun p List.mem_cons_self

end JoinedBy

/-! ## Single clauses -/

theorem reading_singleton_eq (p : Placed ρ) (v : Value) :
    reading catalog [p] v = (runReading catalog [p] v).2 := by
  rw [reading_eq, runs_singleton]
  rfl

/-- Through a collection, a clause asks for an element of which it is true further on. -/
theorem reading_within {p : Placed ρ} {chain : List String} {element : FieldType ρ}
    {inner : Resolved ρ} (hp : p.2 = .within chain element inner) (v : Value) :
    reading catalog [p] v = ((v.walk chain).items?.getD []).any fun item =>
      reading catalog [(p.1, p.2.inside)] item := by
  obtain ⟨c, r⟩ := p
  cases hp
  rw [reading_singleton_eq, runReading]
  cases v.walk chain <;> rfl

theorem runReading_shared (c : Clause) (chain : List String) (element : FieldType ρ)
    (inner : Resolved ρ) (run : List (Placed ρ)) (v : Value) :
    (runReading catalog ((c, .within chain element inner) :: run) v).2 =
      ((v.walk chain).items?.getD []).any fun item =>
        reading catalog (enter ((c, .within chain element inner) :: run)) item := by
  rw [runReading]
  cases v.walk chain <;> rfl

/-- A run is one direct clause, or clauses through one collection. -/
theorem run_cases {clauses run : List (Placed ρ)} (h : run ∈ runs clauses) :
    (∃ p, run = [p]) ∨ ∃ c chain element inner rest,
      run = (c, .within chain element inner) :: rest := by
  obtain ⟨before, after, hruns⟩ := List.append_of_mem h
  obtain ⟨_, block, _, -, -, hblock⟩ := Block.exists_of_runs_eq hruns
  cases hblock with
  | direct c chain type => exact .inl ⟨_, rfl⟩
  | shared c chain element inner rest => exact .inr ⟨c, chain, element, inner, rest, rfl⟩

/-! ## Alternatives -/

/-- A run of alternatives is true when one of its clauses is true alone, if that is so inside. -/
theorem runReading_or {clauses run : List (Placed ρ)} (hrun : run ∈ runs clauses) (v : Value)
    (inside : layers (enter run) < layers run → ∀ item,
      reading catalog (enter run) item = true ↔
        ∃ p ∈ enter run, reading catalog [p] item = true) :
    (runReading catalog run v).2 = true ↔ ∃ p ∈ run, reading catalog [p] v = true := by
  rcases run_cases hrun with ⟨p, rfl⟩ | ⟨c, chain, element, inner, rest, rfl⟩
  · simp [reading_singleton_eq]
  · have hwithin := exists_within_of_mem_run hrun
    have hinside := inside (layers_enter_lt c chain element inner rest)
    rw [runReading_shared, List.any_eq_true]
    constructor
    · rintro ⟨item, hitem, h⟩
      obtain ⟨q, hq, hqi⟩ := (hinside item).1 h
      obtain ⟨p, hp, rfl⟩ := mem_enter.1 hq
      obtain ⟨element', inner', hpw⟩ := hwithin p hp
      exact ⟨p, hp, (reading_within hpw v).trans (List.any_eq_true.2 ⟨item, hitem, hqi⟩)⟩
    · rintro ⟨p, hp, h⟩
      obtain ⟨element', inner', hpw⟩ := hwithin p hp
      rw [reading_within hpw, List.any_eq_true] at h
      obtain ⟨item, hitem, hpi⟩ := h
      exact ⟨item, hitem, (hinside item).2 ⟨_, mem_enter.2 ⟨p, hp, rfl⟩, hpi⟩⟩

/-- Alternatives are true when one of them is true alone, whatever they share. -/
theorem reading_or {clauses : List (Placed ρ)} (h : JoinedBy .or clauses) (hne : clauses ≠ [])
    (v : Value) :
    reading catalog clauses v = true ↔ ∃ p ∈ clauses, reading catalog [p] v = true := by
  induction hn : layers clauses using Nat.strong_induction_on generalizing clauses v with
  | _ n ih =>
    subst hn
    have hrun : ∀ run ∈ runs clauses, ((runReading catalog run v).2 = true ↔
        ∃ p ∈ run, reading catalog [p] v = true) := by
      intro run hmem
      refine runReading_or hmem v fun hlt item => ?_
      have hrunNe : run ≠ [] := List.ne_nil_of_mem_splitBy hmem
      exact ih _ (hlt.trans_le (layers_le_of_mem_runs hmem)) (h.of_mem_runs hmem).enter
        (by simpa [enter] using hrunNe) item rfl
    have hruns : runs clauses ≠ [] := fun hnil => hne (List.splitBy_eq_nil.1 hnil)
    rw [reading_eq, joinValues_or (h.readings v), or_iff_right (by simpa using hruns)]
    constructor
    · rintro ⟨value, hvalue, htrue⟩
      obtain ⟨run, hmem, rfl⟩ := List.mem_map.1 hvalue
      obtain ⟨p, hp, hpv⟩ := (hrun run hmem).1 htrue
      exact ⟨p, mem_of_mem_runs hmem hp, hpv⟩
    · rintro ⟨p, hp, hpv⟩
      obtain ⟨run, hmem, hp⟩ := exists_run_of_mem hp
      exact ⟨_, List.mem_map_of_mem hmem, (hrun run hmem).2 ⟨p, hp, hpv⟩⟩

/-! ## Demands -/

/-- Demands that are met together are met one by one. -/
theorem reading_of_reading_and {clauses : List (Placed ρ)} (h : JoinedBy .and clauses) {v : Value}
    (hv : reading catalog clauses v = true) : ∀ p ∈ clauses, reading catalog [p] v = true := by
  induction hn : layers clauses using Nat.strong_induction_on generalizing clauses v with
  | _ n ih =>
    subst hn
    rw [reading_eq, joinValues_and (h.readings v), List.forall_mem_map] at hv
    intro p hp
    obtain ⟨run, hmem, hp⟩ := exists_run_of_mem hp
    have hrun := hv run hmem
    rcases run_cases hmem with ⟨q, rfl⟩ | ⟨c, chain, element, inner, rest, rfl⟩
    · rw [List.mem_singleton.1 hp, reading_singleton_eq]
      exact hrun
    · -- The element that meets the demands of the run meets each of them.
      rw [runReading_shared, List.any_eq_true] at hrun
      obtain ⟨item, hitem, hall⟩ := hrun
      have hlt := (layers_enter_lt c chain element inner rest).trans_le
        (layers_le_of_mem_runs hmem)
      have hp' := ih _ hlt (h.of_mem_runs hmem).enter hall rfl _ (mem_enter.2 ⟨p, hp, rfl⟩)
      obtain ⟨element', inner', hpw⟩ := exists_within_of_mem_run hmem p hp
      exact (reading_within hpw v).trans (List.any_eq_true.2 ⟨item, hitem, hp'⟩)

/-- Where no neighbours share a collection, each clause is a run. -/
theorem runs_of_isChain {clauses : List (Placed ρ)}
    (h : clauses.IsChain fun p q => p.2.sameCollection q.2 = false) :
    runs clauses = clauses.map fun p => [p] := by
  induction clauses with
  | nil => rfl
  | cons p clauses ih =>
    rw [runs_cons_of_not, ih h.tail, List.map_cons]
    intro q hq
    obtain ⟨clauses, rfl⟩ := List.head?_eq_some_iff.1 hq
    exact (List.isChain_cons_cons.1 h).1

theorem reading_and_of_isChain {clauses : List (Placed ρ)} (h : JoinedBy .and clauses)
    (hchain : clauses.IsChain fun p q => p.2.sameCollection q.2 = false) {v : Value}
    (hv : ∀ p ∈ clauses, reading catalog [p] v = true) : reading catalog clauses v = true := by
  rw [reading_eq, joinValues_and (h.readings v), runs_of_isChain hchain, List.forall_mem_map,
    List.forall_mem_map]
  intro p hp
  rw [← reading_singleton_eq]
  exact hv p hp

/-! ## Requests -/

/-- Whether the clause is true of a value when it is the only one. -/
def Clause.HoldsAlone (catalog : Catalog ρ) (root : ρ) (limits : Limits) (c : Clause)
    (v : Value) : Prop :=
  ∃ condition, c.alone.compile catalog root limits = .ok condition ∧ condition.holds v = true

/-- Whether the paths of two clauses go through the same collection first. -/
def Clause.SharesWith (catalog : Catalog ρ) (root : ρ) (maxDepth : Nat) (c d : Clause) : Prop :=
  ∃ r s, catalog.resolve maxDepth (.record root) c.path = .ok r ∧
    catalog.resolve maxDepth (.record root) d.path = .ok s ∧ r.sameCollection s = true

section Requests

variable {root : ρ} {limits : Limits} {request : Request} {g : Group} {condition : Condition}

/-- The clauses of a request that compiles compile alone. -/
theorem Request.exists_alone_of_compile
    (h : request.compile catalog root limits = .ok condition) (hg : g ∈ request.groups) :
    ∀ c ∈ g.clauses, ∃ alone, c.alone.compile catalog root limits = .ok alone := by
  intro c hc
  have hle := clauseCount_le_of_compile h
  exact Clause.not_refused_iff.1 ((exists_compile_ok_iff_of_le hle).1 ⟨condition, h⟩ g hg c hc)

/-- What a clause says alone is its reading. -/
theorem Clause.holdsAlone_iff {c : Clause} {r : Resolved ρ} {v : Value}
    (halone : ∃ alone, c.alone.compile catalog root limits = .ok alone)
    (hr : catalog.resolve limits.maxPathDepth (.record root) c.path = .ok r) :
    c.HoldsAlone catalog root limits v ↔ reading catalog [(c, r)] v = true := by
  obtain ⟨alone, halone⟩ := halone
  obtain ⟨r', test, hr', htest, hholds⟩ := Request.holds_of_single (c := c) rfl halone
  cases hr.symm.trans hr'
  rw [reading_singleton, funext (accepts_of_test htest), ← hholds, HoldsAlone, halone]
  simp

/-- A request with a single group that compiles is true where the clauses of the group are. -/
theorem Request.reading_of_single_group (hg : request.groups = [g])
    (h : request.compile catalog root limits = .ok condition) :
    ∃ clauses, g.place catalog root limits.maxPathDepth = .ok clauses ∧
      ∀ v, condition.holds v = reading catalog clauses v := by
  obtain ⟨placed, hp, conditions, hc, rfl⟩ := place_of_compile h
  rw [place, mapM_eq_ok_iff] at hp
  by_cases hempty : g.isEmpty = true
  · have hfilled : request.filledGroups = [] := by simp [filledGroups, hg, hempty]
    rw [hfilled] at hp
    cases hp
    cases hc
    have hnil : g.clauses = [] := by simpa [Group.isEmpty] using hempty
    refine ⟨[], ?_, fun v => ?_⟩
    · rw [Group.place, hnil]
      rfl
    · rw [reading_eq]
      rfl
  · have hfilled : request.filledGroups = [g] := by simp [filledGroups, hg, hempty]
    rw [hfilled] at hp
    obtain _ | ⟨hplace, _ | _⟩ := hp
    obtain ⟨clauses, hclauses, rfl⟩ := map_eq_ok_iff.1 hplace
    obtain _ | ⟨⟨-, hcompiled⟩, _ | _⟩ := hc
    refine ⟨clauses, hclauses, fun v => ?_⟩
    rw [Condition.holds_joined]
    exact Block.holds_of_compileAll hcompiled v

/-- **Groups joined alike.** The clauses of a single group that compiles compile alone. If they are
alternatives, the request is true of a value exactly when one of them is true alone, or when there
is none. If all of them are demanded and the request is true, each is true alone; and conversely,
if no two neighbours go through the same collection first. -/
theorem group_joined_alike (hg : request.groups = [g])
    (h : request.compile catalog root limits = .ok condition) :
    (∀ c ∈ g.clauses, ∃ alone, c.alone.compile catalog root limits = .ok alone) ∧
    ((∀ c ∈ g.clauses.tail, c.combinator = .or) → ∀ v,
      (condition.holds v = true ↔
        g.clauses = [] ∨ ∃ c ∈ g.clauses, c.HoldsAlone catalog root limits v)) ∧
    ((∀ c ∈ g.clauses.tail, c.combinator = .and) → ∀ v,
      (condition.holds v = true → ∀ c ∈ g.clauses, c.HoldsAlone catalog root limits v) ∧
      (g.clauses.IsChain (fun c d => ¬ c.SharesWith catalog root limits.maxPathDepth d) →
        (∀ c ∈ g.clauses, c.HoldsAlone catalog root limits v) → condition.holds v = true)) := by
  have halone := Request.exists_alone_of_compile h (by rw [hg]; exact List.mem_singleton_self g)
  obtain ⟨clauses, hplace, hholds⟩ := Request.reading_of_single_group hg h
  obtain ⟨hclauses, hresolve⟩ := Group.place_eq_ok_iff.1 hplace
  refine ⟨halone, ?_⟩
  rw [← hclauses] at halone ⊢
  rw [List.forall_mem_map] at halone
  have hiff : ∀ v, ∀ p ∈ clauses,
      (p.1.HoldsAlone catalog root limits v ↔ reading catalog [p] v = true) :=
    fun v p hp => Clause.holdsAlone_iff (halone p hp) (hresolve p hp)
  have hjoined : ∀ k, (∀ c ∈ (clauses.map fun p => p.1).tail, c.combinator = k) →
      JoinedBy k clauses := by
    intro k hk
    rw [← List.map_tail, List.forall_mem_map] at hk
    exact hk
  refine ⟨fun hor v => ?_, fun hand v => ⟨fun hv => ?_, fun hchain hall => ?_⟩⟩
  · rw [hholds, List.map_eq_nil_iff]
    by_cases hne : clauses = []
    · simp [hne, reading_eq, runs, joinValues]
    · rw [reading_or (hjoined _ hor) hne, or_iff_right hne]
      constructor
      · rintro ⟨p, hp, hpv⟩
        exact ⟨p.1, List.mem_map_of_mem hp, (hiff v p hp).2 hpv⟩
      · rintro ⟨c, hc, hcv⟩
        obtain ⟨p, hp, rfl⟩ := List.mem_map.1 hc
        exact ⟨p, hp, (hiff v p hp).1 hcv⟩
  · rw [List.forall_mem_map]
    rw [hholds] at hv
    exact fun p hp => (hiff v p hp).2 (reading_of_reading_and (hjoined _ hand) hv p hp)
  · rw [List.forall_mem_map] at hall
    rw [hholds]
    refine reading_and_of_isChain (hjoined _ hand) ?_ fun p hp => (hiff v p hp).1 (hall p hp)
    rw [List.isChain_map] at hchain
    refine List.IsChain.imp_of_mem_imp (fun p q hp hq hnot => ?_) hchain
    by_contra hsame
    exact hnot ⟨p.2, q.2, hresolve p hp, hresolve q hq, by simpa using hsame⟩

end Requests

/-- Customers with an order in which some item is a lamp, or is sold more than twice, or which has
a total below a hundred. -/
def bargainRequest : Request where
  groups := [⟨[⟨.ofText "Orders.Items.Sku", .contains, .str "lamp", .and⟩,
    ⟨.ofText "orders.items.quantity", .greater, .str "2", .or⟩,
    ⟨.ofText "ORDERS.total", .less, .str "100", .or⟩], .or⟩]

/-- One order has the lamp and another one the low total. -/
theorem group_joined_alike_bargains :
    ∃ condition, bargainRequest.compile Sample.catalog .customer .standard = .ok condition ∧
      condition.holds lampBuyer = true ∧
      ∃ c ∈ bargainRequest.groups.flatMap (·.clauses),
        c.HoldsAlone Sample.catalog .customer .standard lampBuyer := by
  obtain ⟨condition, h, hv⟩ := exists_ok_of_any
    (show (bargainRequest.compile Sample.catalog .customer .standard).toOption.any
      (·.holds lampBuyer) = true by decide +kernel)
  have halike := (group_joined_alike rfl h).2.1 (by decide) lampBuyer
  exact ⟨condition, h, hv, (halike.1 hv).resolve_left (List.cons_ne_nil _ _)⟩

/-- A group without clauses has no alternative that is true, and yet asks for nothing. -/
theorem holds_of_no_alternatives :
    (Request.mk [.empty]).compile Sample.catalog .customer .standard = .ok .always ∧
      (∀ c ∈ Group.empty.clauses.tail, c.combinator = .or) ∧
      Condition.always.holds lampBuyer = true ∧
      ¬ ∃ c ∈ Group.empty.clauses, c.HoldsAlone Sample.catalog .customer .standard lampBuyer :=
  ⟨rfl, by simp [Group.empty], rfl, by simp [Group.empty]⟩

end RecordFilter
