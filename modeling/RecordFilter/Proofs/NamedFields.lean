import RecordFilter.Proofs.JoinedAlike

/-!
# Only named fields are read

The resolved paths of a request name the fields that it may read, at every place of a record: a
field is named where some path goes through it, and the elements of a collection are read by what
is left of the paths that go into them. All other fields can be erased, there and inside the
elements, without a trace. The proof compares two values path by path: they agree at a path if they
have equally many elements in each collection on its way, and look the same at its leaf. What
clauses say of a value depends on nothing else (`reading_congr`), and erasing keeps a value's
agreement with itself (`agreeAt_erase`).

`compile_reads_named`: a compiled request is true of a value exactly when it is true of what is left
of the value, and of values that agree where the request looks it is true alike.
-/

namespace RecordFilter

variable {ρ : Type} {catalog : Catalog ρ}

/-! ## What is left of a path -/

namespace Resolved

/-- What is left of a path behind a field, if it goes through that field. -/
def past? (name : String) : Resolved ρ → Option (Resolved ρ)
  | leaf (first :: chain) type => if first = name then some (leaf chain type) else none
  | within (first :: chain) element inner =>
    if first = name then some (within chain element inner) else none
  | _ => none

/-- What is left of a path in the elements of a collection, if it goes into them. -/
def into? : Resolved ρ → Option (Resolved ρ)
  | within [] _ inner => some inner
  | _ => none

@[simp] theorem past?_behind (name : String) (r : Resolved ρ) :
    (r.behind name).past? name = some r := by
  cases r <;> simp [behind, past?]

/-- A path ends where it is, goes into the elements, or goes through a field. -/
@[elab_as_elim]
theorem step_induction {motive : Resolved ρ → Prop} (here : ∀ type, motive (leaf [] type))
    (into : ∀ element inner, motive inner → motive (within [] element inner))
    (through : ∀ name r, motive r → motive (r.behind name)) (r : Resolved ρ) : motive r := by
  induction r with
  | leaf chain type =>
    induction chain with
    | nil => exact here type
    | cons name chain ih => exact through name _ ih
  | within chain element inner ihinner =>
    induction chain with
    | nil => exact into element inner ihinner
    | cons name chain ih => exact through name _ ih

end Resolved

/-- What is left of some paths behind a field. -/
def pathsPast (name : String) (paths : List (Resolved ρ)) : List (Resolved ρ) :=
  paths.filterMap (Resolved.past? name)

/-- What is left of some paths in the elements of a collection. -/
def pathsInto (paths : List (Resolved ρ)) : List (Resolved ρ) :=
  paths.filterMap Resolved.into?

theorem mem_pathsPast {name : String} {paths : List (Resolved ρ)} {r : Resolved ρ}
    (h : r.behind name ∈ paths) : r ∈ pathsPast name paths :=
  List.mem_filterMap.2 ⟨_, h, Resolved.past?_behind name r⟩

theorem mem_pathsInto {paths : List (Resolved ρ)} {element : FieldType ρ} {inner : Resolved ρ}
    (h : Resolved.within [] element inner ∈ paths) : inner ∈ pathsInto paths :=
  List.mem_filterMap.2 ⟨_, h, rfl⟩

namespace Value

/-! ## Erasing -/

mutual

/-- What is left of a value when every field is erased that no path goes through at its place. -/
def erase (paths : List (Resolved ρ)) : Value → Value
  | record fields => record (eraseFields paths fields)
  | list items => list (eraseItems (pathsInto paths) items)
  | other => other

/-- The fields that some path goes through, each with what is left of its value. -/
def eraseFields (paths : List (Resolved ρ)) : List (String × Value) → List (String × Value)
  | [] => []
  | (name, v) :: fields =>
    if (pathsPast name paths).isEmpty then eraseFields paths fields
    else (name, erase (pathsPast name paths) v) :: eraseFields paths fields

/-- What is left of each item of a list. -/
def eraseItems (paths : List (Resolved ρ)) : List Value → List Value
  | [] => []
  | item :: items => erase paths item :: eraseItems paths items

end

theorem eraseItems_eq_map (paths : List (Resolved ρ)) (items : List Value) :
    eraseItems paths items = items.map (erase paths) := by
  induction items with
  | nil => rfl
  | cons item items ih => rw [eraseItems, List.map_cons, ih]

theorem lookup_eraseFields (name : String) (paths : List (Resolved ρ))
    (fields : List (String × Value)) :
    (eraseFields paths fields).lookup name =
      if (pathsPast name paths).isEmpty then none
      else (fields.lookup name).map (erase (pathsPast name paths)) := by
  induction fields with
  | nil => simp [eraseFields]
  | cons field fields ih =>
    obtain ⟨first, v⟩ := field
    rw [eraseFields]
    by_cases hname : name = first
    · subst hname
      by_cases hempty : (pathsPast name paths).isEmpty = true
      · rw [if_pos hempty, ih, if_pos hempty, if_pos hempty]
      · rw [if_neg hempty, if_neg hempty, List.lookup_cons_self, List.lookup_cons_self]
        rfl
    · have hbeq : (name == first) = false := beq_false_of_ne hname
      rw [List.lookup_cons, hbeq]
      split
      · exact ih
      · rw [List.lookup_cons, hbeq]
        exact ih

/-- A field that no path goes through is absent, and of any other one something is left. -/
theorem field?_erase (name : String) (paths : List (Resolved ρ)) (v : Value) :
    (v.erase paths).field? name =
      if (pathsPast name paths).isEmpty then none
      else (v.field? name).map (erase (pathsPast name paths)) := by
  cases v with
  | record fields => exact lookup_eraseFields name paths fields
  | _ => simp [erase, field?]

theorem get_erase {name : String} {paths : List (Resolved ρ)} {r : Resolved ρ}
    (h : r ∈ pathsPast name paths) (v : Value) :
    (v.erase paths).get name = (v.get name).erase (pathsPast name paths) := by
  have hne : ¬ (pathsPast name paths).isEmpty = true := by
    rw [List.isEmpty_iff]
    exact List.ne_nil_of_mem h
  rw [get, field?_erase, if_neg hne, get]
  cases v.field? name <;> rfl

/-! ## Agreeing -/

/-- What can be seen of a value without looking into it. -/
def outline : Value → Value
  | record _ => record []
  | list _ => list []
  | other => other

/-- Two values agree at a path: the collections on its way have equally many elements in both, and
at its leaf they look the same. -/
def AgreeAt : Resolved ρ → Value → Value → Prop
  | .leaf chain _, v, w => (v.walk chain).outline = (w.walk chain).outline
  | .within chain _ inner, v, w =>
    List.Forall₂ (AgreeAt inner) ((v.walk chain).items?.getD []) ((w.walk chain).items?.getD [])

theorem agreeAt_behind {name : String} {r : Resolved ρ} {v w : Value} :
    AgreeAt (r.behind name) v w ↔ AgreeAt r (v.get name) (w.get name) := by
  cases r <;> rfl

@[simp] theorem outline_erase (paths : List (Resolved ρ)) (v : Value) :
    (v.erase paths).outline = v.outline := by
  cases v <;> rfl

theorem items?_erase (paths : List (Resolved ρ)) (v : Value) :
    (v.erase paths).items? = v.items?.map fun items => items.map (erase (pathsInto paths)) := by
  cases v with
  | list items => rw [erase, eraseItems_eq_map]; rfl
  | _ => rfl

/-- Erasing changes nothing where the paths look. -/
theorem agreeAt_erase {paths : List (Resolved ρ)} {r : Resolved ρ} (h : r ∈ paths) (v : Value) :
    AgreeAt r (v.erase paths) v := by
  induction r using Resolved.step_induction generalizing paths v with
  | here type => exact outline_erase paths v
  | into element inner ih =>
    show List.Forall₂ (AgreeAt inner) ((v.erase paths).items?.getD []) (v.items?.getD [])
    rw [items?_erase]
    cases v.items? with
    | none => exact .nil
    | some items =>
      rw [Option.map_some, Option.getD_some, Option.getD_some, List.forall₂_map_left_iff]
      exact List.forall₂_same.2 fun item _ => ih (mem_pathsInto h) item
  | through name r ih =>
    rw [agreeAt_behind, get_erase (mem_pathsPast h)]
    exact ih (mem_pathsPast h) (v.get name)

end Value

/-! ## Reading -/

/-- No test looks into a record or a list. -/
theorem ValueTest.passes_outline (t : ValueTest) (v : Value) : t.passes v.outline = t.passes v := by
  cases v with
  | record fields => cases t <;> rfl
  | list items => cases t <;> rfl
  | _ => rfl

theorem Clause.accepts_of_outline_eq (c : Clause) (type : FieldType ρ) {v w : Value}
    (h : v.outline = w.outline) : c.accepts catalog type v = c.accepts catalog type w := by
  unfold accepts
  cases c.test catalog type with
  | error e => rfl
  | ok test =>
    show test.passes v = test.passes w
    rw [← test.passes_outline v, h, test.passes_outline]

theorem any_eq_any_of_forall₂ {α : Type} {R : α → α → Prop} {f : α → Bool} {xs ys : List α}
    (h : List.Forall₂ R xs ys) (hf : ∀ x y, R x y → f x = f y) : xs.any f = ys.any f := by
  induction h with
  | nil => rfl
  | cons hxy _ ih => rw [List.any_cons, List.any_cons, hf _ _ hxy, ih]

/-- The elements of a run's collection agree at what is left of its paths, all of them at once. -/
theorem forall₂_agreeAt_enter {clauses run : List (Placed ρ)} {c : Clause} {chain : List String}
    {element : FieldType ρ} {inner : Resolved ρ} {v w : Value}
    (hrun : (c, .within chain element inner) :: run ∈ runs clauses)
    (h : ∀ p ∈ clauses, v.AgreeAt p.2 w) :
    List.Forall₂ (fun x y : Value =>
        ∀ p ∈ enter ((c, .within chain element inner) :: run), x.AgreeAt p.2 y)
      ((v.walk chain).items?.getD []) ((w.walk chain).items?.getD []) := by
  have heach : ∀ p ∈ (c, .within chain element inner) :: run,
      List.Forall₂ (Value.AgreeAt p.2.inside)
        ((v.walk chain).items?.getD []) ((w.walk chain).items?.getD []) := by
    intro p hp
    obtain ⟨element', inner', hwithin⟩ := exists_within_of_mem_run hrun p hp
    have hp := h p (mem_of_mem_runs hrun hp)
    rw [hwithin] at hp ⊢
    exact hp
  refine List.forall₂_iff_zip.2 ⟨(heach _ List.mem_cons_self).length_eq, fun hxy p hp => ?_⟩
  obtain ⟨q, hq, rfl⟩ := mem_enter.1 hp
  exact (List.forall₂_iff_zip.1 (heach q hq)).2 hxy

/-- Clauses say the same of values that agree at their paths. -/
theorem reading_congr {clauses : List (Placed ρ)} {v w : Value}
    (h : ∀ p ∈ clauses, v.AgreeAt p.2 w) :
    reading catalog clauses v = reading catalog clauses w := by
  induction hn : layers clauses using Nat.strong_induction_on generalizing clauses v w with
  | _ n ih =>
    subst hn
    rw [reading_eq, reading_eq]
    congr 1
    refine List.map_congr_left fun run hrun => ?_
    cases run with
    | nil => rw [runReading, runReading]
    | cons p run =>
      obtain ⟨c, r⟩ := p
      cases r with
      | leaf chain type =>
        have hleaf := h _ (mem_of_mem_runs hrun List.mem_cons_self)
        rw [runReading, runReading, c.accepts_of_outline_eq type hleaf]
      | within chain element inner =>
        have hlt := (layers_enter_lt c chain element inner run).trans_le
          (layers_le_of_mem_runs hrun)
        refine Prod.ext (by rw [runReading, runReading]) ?_
        rw [runReading_shared, runReading_shared]
        exact any_eq_any_of_forall₂ (forall₂_agreeAt_enter hrun h) fun x y hxy =>
          ih _ hlt hxy rfl

/-! ## Requests -/

/-- The paths of a request that is placed, one for each clause. -/
theorem Request.forall₂_of_place {root : ρ} {maxDepth : Nat} {request : Request}
    {placed : List (Combinator × List (Placed ρ))}
    (h : request.place catalog root maxDepth = .ok placed) :
    List.Forall₂ (fun c r => catalog.resolve maxDepth (.record root) c.path = .ok r)
      (request.groups.flatMap fun g => g.clauses)
      (placed.flatMap fun p => p.2.map fun q => q.2) := by
  unfold place filledGroups at h
  rw [mapM_eq_ok_iff] at h
  generalize request.groups = groups at h ⊢
  induction groups generalizing placed with
  | nil =>
    cases h
    exact .nil
  | cons g groups ih =>
    rw [List.filter_cons] at h
    split at h
    · obtain _ | ⟨hg, hrest⟩ := h
      obtain ⟨clauses, hplace, rfl⟩ := map_eq_ok_iff.1 hg
      refine List.rel_append ?_ (ih hrest)
      refine List.forall₂_map_right_iff.2 ((mapM_eq_ok_iff.1 hplace).imp fun c p hp => ?_)
      obtain ⟨r, hr, rfl⟩ := map_eq_ok_iff.1 hp
      exact hr
    · next hempty =>
      have hnone : g.clauses = [] := by simpa [Group.isEmpty] using hempty
      rw [List.flatMap_cons, hnone]
      exact ih h

/-- **Only named fields are read.** A request that compiles has resolved paths, one for each clause,
such that all fields that these do not go through can be erased from a value, at every level and in
every element, without changing whether the request is true of it; and it is true alike of any two
values that agree at these paths, whatever else they hold. -/
theorem compile_reads_named {root : ρ} {limits : Limits} {request : Request}
    {condition : Condition} (h : request.compile catalog root limits = .ok condition) :
    ∃ paths, List.Forall₂
        (fun c r => catalog.resolve limits.maxPathDepth (.record root) c.path = .ok r)
        (request.groups.flatMap fun g => g.clauses) paths ∧
      (∀ v, condition.holds (v.erase paths) = condition.holds v) ∧
      ∀ v w, (∀ r ∈ paths, Value.AgreeAt r v w) → condition.holds v = condition.holds w := by
  obtain ⟨placed, hplace, -, hholds⟩ := holds_eq_reading h
  have hagree : ∀ v w, (∀ r ∈ placed.flatMap fun p => p.2.map fun q => q.2, Value.AgreeAt r v w) →
      condition.holds v = condition.holds w := by
    intro v w hvw
    rw [hholds, hholds]
    congr 1
    refine List.map_congr_left fun p hp => ?_
    rw [reading_congr fun q hq => hvw q.2 (List.mem_flatMap.2 ⟨p, hp, List.mem_map_of_mem hq⟩)]
  refine ⟨_, Request.forall₂_of_place hplace, fun v => ?_, hagree⟩
  exact hagree _ _ fun r hr => Value.agreeAt_erase hr v

/-- Customers with an address and a small order of lamps. -/
def addresseeRequest : Request where
  groups := [⟨[
    ⟨.ofText "orders.items.sku", .contains, .str "lamp", .and⟩,
    ⟨.ofText "Orders.Total", .less, .str "100", .and⟩,
    ⟨.ofText "address", .notEqual, .null, .and⟩], .and⟩]

/-- Bob, who lives in Oslo, bought two lamps. -/
def addressee : Value :=
  let lamps := Sample.item.complete
    [("sku", .str "LAMP-1"), ("quantity", .int ⟨2, by decide, by decide⟩)]
  let order := Sample.order.complete [("total", .float (.ofInt 60)), ("items", .list [lamps])]
  Sample.customer.complete
    [("name", .str "Bob"), ("address", Sample.address.complete [("city", .str "Oslo")]),
      ("orders", .list [order])]

/-- Of Bob's address no more is left than that there is one. -/
def erasedAddressee : Value :=
  .record [
    ("address", .record []),
    ("orders", .list [.record [
      ("total", .float (.ofInt 60)),
      ("items", .list [.record [("sku", .str "LAMP-1")]])]])]

theorem compile_reads_named_addressee :
    ∃ condition, addresseeRequest.compile Sample.catalog .customer .standard = .ok condition ∧
      condition.holds addressee = true ∧ condition.holds erasedAddressee = true := by
  obtain ⟨condition, h, hb⟩ := exists_ok_of_any
    (show (addresseeRequest.compile Sample.catalog .customer .standard).toOption.any
      (·.holds addressee) = true by decide +kernel)
  obtain ⟨paths, hpaths, herase, -⟩ := compile_reads_named h
  have hresolved : some paths = some [
      .within ["orders"] (.record .order)
        (.within ["items"] (.record .item) (.leaf ["sku"] .string)),
      .within ["orders"] (.record .order) (.leaf ["total"] (.float .double)),
      .leaf ["address"] (.optional (.record .address))] := by
    have hmapM := congrArg Except.toOption (mapM_eq_ok_iff.2 hpaths)
    refine hmapM.symm.trans ?_
    decide +kernel
  cases hresolved
  refine ⟨condition, h, hb, ?_⟩
  rw [← hb, ← herase addressee]
  rfl

end RecordFilter
