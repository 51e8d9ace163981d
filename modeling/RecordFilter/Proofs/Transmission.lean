import RecordFilter.Proofs.Conforming
import RecordFilter.Proofs.PathText
import RecordFilter.Proofs.Refusal
import RecordFilter.Proofs.Rereading

/-!
# Requests sent as text keep their meaning

The text of a request forgets where the segments of a path end and whether a literal is a string or
an enum member. Of a request that compiles it forgets nothing that matters. The segments of a path
that resolves are names of fields but for case and underscores, so they have no dots where no field
has one, and the path is read back as it was. And whatever an enum member is converted to, the same
text as a string is converted to as well.

So the request that is read back compiles to the very same condition (`compile_of_text`).
-/

namespace RecordFilter

variable {ρ : Type} {catalog : Catalog ρ} {root : ρ}

/-! ## Strings for enum members -/

namespace Literal

/-- The literal with a string for an enum member. -/
def stringized : Literal → Literal
  | enum member => str member
  | other => other

theorem reread_of_isInRange {literal : Literal} (h : literal.IsInRange) :
    literal.reread = literal.stringized := by
  cases literal with
  | int value => exact if_pos h
  | float value => exact if_pos h
  | null | str | bool | enum => rfl

theorem coerceTo?_str {member : String} {type : FieldType ρ} {coerced : Coerced}
    (h : (enum member).coerceTo? type = some coerced) :
    (str member).coerceTo? type = some coerced := by
  cases type with
  | bool | int | float => cases h
  | string | dateTime | localDateTime | date | enum | optional | list | record => exact h

/-- A string is converted to whatever the enum member with its text is converted to. -/
theorem coerce_stringized {literal : Literal} {type : FieldType ρ} {coerced : Coerced}
    (h : literal.coerce catalog type = .ok coerced) :
    literal.stringized.coerce catalog type = .ok coerced := by
  cases literal with
  | enum member => exact (coerce_eq_ok_iff rfl).2 (coerceTo?_str ((coerce_eq_ok_iff rfl).1 h))
  | null | str | int | float | bool => exact h

end Literal

namespace Block

mutual

/-- A block with strings for enum members. -/
def stringized : Block ρ → Block ρ
  | direct combinator chain type operator literal =>
    direct combinator chain type operator literal.stringized
  | shared combinator chain blocks => shared combinator chain (stringizedEach blocks)

/-- Blocks with strings for enum members. -/
def stringizedEach : List (Block ρ) → List (Block ρ)
  | [] => []
  | block :: blocks => stringized block :: stringizedEach blocks

end

/-- Which blocks clauses fall into does not depend on their literals. -/
theorem insert_stringized (combinator : Combinator) (operator : Operator) (literal : Literal)
    (r : Resolved ρ) (blocks : List (Block ρ)) :
    insert combinator operator literal.stringized r (stringizedEach blocks) =
      stringizedEach (insert combinator operator literal r blocks) := by
  induction r generalizing blocks with
  | leaf chain type => rfl
  | within chain element inner ih =>
    have hnew : insert combinator operator literal.stringized inner [] =
        stringizedEach (insert combinator operator literal inner []) := ih []
    match blocks with
    | [] => simp only [insert, stringizedEach, stringized, hnew]
    | .direct .. :: blocks => simp only [insert, stringizedEach, stringized, hnew]
    | .shared next chain' members :: blocks =>
      simp only [insert, stringizedEach, stringized]
      split
      · rw [ih members, stringizedEach, stringized]
      · rw [hnew, stringizedEach, stringizedEach, stringized, stringized]

mutual

/-- With strings for enum members a block that compiles has the same condition. -/
theorem compile_stringized : ∀ {block : Block ρ} {compiled : Combinator × Condition},
    compile catalog block = .ok compiled → compile catalog block.stringized = .ok compiled
  | .direct combinator chain type operator literal, compiled, h => by
    obtain ⟨condition, htest, hcompiled⟩ := bind_eq_ok_iff.1 h
    obtain ⟨coerced, hcoerced, hbuild⟩ := bind_eq_ok_iff.1 htest
    exact bind_eq_ok_iff.2 ⟨condition, bind_eq_ok_iff.2
      ⟨coerced, Literal.coerce_stringized hcoerced, hbuild⟩, hcompiled⟩
  | .shared combinator chain blocks, compiled, h => by
    obtain ⟨inner, hinner, rfl⟩ := compile_shared_eq_ok h
    obtain ⟨conditions, hconditions, rfl⟩ := compileAll_eq_ok_iff.1 hinner
    have hall : compileAll catalog (stringizedEach blocks) = .ok (.joined conditions) :=
      compileAll_eq_ok_iff.2 ⟨conditions, forall₂_compile_stringized hconditions, rfl⟩
    rw [stringized, compile_shared, hall]
    rfl

theorem forall₂_compile_stringized : ∀ {blocks : List (Block ρ)}
    {conditions : List (Combinator × Condition)},
    List.Forall₂ (fun block compiled => compile catalog block = .ok compiled) blocks conditions →
      List.Forall₂ (fun block compiled => compile catalog block = .ok compiled)
        (stringizedEach blocks) conditions
  | [], _, .nil => .nil
  | _ :: _, _, .cons hblock hblocks =>
    .cons (compile_stringized hblock) (forall₂_compile_stringized hblocks)

end

theorem compileAll_stringized {blocks : List (Block ρ)} {condition : Condition}
    (h : compileAll catalog blocks = .ok condition) :
    compileAll catalog (stringizedEach blocks) = .ok condition := by
  obtain ⟨conditions, hconditions, rfl⟩ := compileAll_eq_ok_iff.1 h
  exact compileAll_eq_ok_iff.2 ⟨conditions, forall₂_compile_stringized hconditions, rfl⟩

/-- The blocks of clauses that are read back, with literals in range. -/
theorem ofClauses_reread {clauses : List (Placed ρ)}
    (h : ∀ p ∈ clauses, p.1.literal.IsInRange) :
    ofClauses (clauses.map fun p => (p.1.reread, p.2)) = stringizedEach (ofClauses clauses) := by
  induction clauses with
  | nil => rfl
  | cons p clauses ih =>
    obtain ⟨hp, hclauses⟩ := List.forall_mem_cons.1 h
    rw [List.map_cons, ofClauses_cons, ofClauses_cons, ih hclauses, Clause.reread_combinator,
      Clause.reread_operator, Clause.reread_literal, Literal.reread_of_isInRange hp,
      insert_stringized]

end Block

/-! ## Dots in paths that resolve -/

namespace Text

/-- Similar names have dots alike. -/
theorem dot_mem_iff_of_similarName {a b : String} (h : similarName a b = true) :
    '.' ∈ a.toList ↔ '.' ∈ b.toList := by
  have hdot (s : String) : '.' ∈ looseKey s ↔ '.' ∈ s.toList :=
    mem_looseKey_iff (by decide) (by decide)
  rw [← hdot, similarName_iff.1 h, hdot]

end Text

/-- The record types that a record type refers to, itself included. -/
inductive Catalog.Reaches (catalog : Catalog ρ) (root : ρ) : ρ → Prop
  | root : catalog.Reaches root root
  | field {owner next : ρ} {f : Field ρ} : catalog.Reaches root owner →
      f ∈ (catalog owner).fields → f.type.innermost.record? = some next →
      catalog.Reaches root next

namespace Catalog

/-- No field of a record type that can be reached has a dot in its name. -/
def Dotless (catalog : Catalog ρ) (root : ρ) : Prop :=
  ∀ reference, catalog.Reaches root reference →
    ∀ f ∈ (catalog reference).fields, '.' ∉ f.name.toList

/-- Where no field has a dot in its name, no path with a dot in a segment can be followed. -/
theorem Dotless.segments (hnames : catalog.Dotless root)
    {segments : List String} {type : FieldType ρ} {r : Resolved ρ}
    (htype : ∀ reference, type.innermost.record? = some reference → catalog.Reaches root reference)
    (h : catalog.follow segments type = .ok r) : ∀ s ∈ segments, '.' ∉ s.toList := by
  induction segments generalizing type r with
  | nil => simp
  | cons segment segments ih =>
    rw [follow] at h
    split at h
    · cases h
    · next reference hreference =>
      split at h
      · cases h
      · next field hfield =>
        split at h
        · cases h
        · next inner hinner =>
          have hreaches := htype reference hreference
          have hmem := RecordType.mem_of_find? hfield
          refine List.forall_mem_cons.2 ⟨?_, ih (fun next hnext => ?_) hinner⟩
          · rw [← Text.dot_mem_iff_of_similarName (RecordType.similarName_of_find? hfield)]
            exact hnames reference hreaches field hmem
          · exact hreaches.field hmem hnext

/-- A path that resolves is read back from its text. -/
theorem Dotless.ofText_text_of_resolve (hnames : catalog.Dotless root) {maxDepth : Nat}
    {path : Path} {r : Resolved ρ} (h : catalog.resolve maxDepth (.record root) path = .ok r) :
    Path.ofText path.text = path := by
  have hfollow := follow_of_resolve h
  refine Path.ofText_text_of_dotless (hnames.segments ?_ hfollow) ?_
  · intro reference hreference
    cases hreference
    exact .root
  · intro hblank
    rw [hblank] at hfollow
    cases hfollow

end Catalog

/-! ## Requests -/

theorem Group.compile_reread (hnames : catalog.Dotless root) {maxDepth : Nat} {g : Group}
    {condition : Condition} (hliterals : ∀ c ∈ g.clauses, c.literal.IsInRange)
    (h : g.compile catalog root maxDepth = .ok condition) :
    g.reread.compile catalog root maxDepth = .ok condition := by
  rw [Group.compile_eq] at h ⊢
  obtain ⟨clauses, hplace, hall⟩ := bind_eq_ok_iff.1 h
  obtain ⟨hclauses, hresolve⟩ := Group.place_eq_ok_iff.1 hplace
  have hplace' : g.reread.place catalog root maxDepth =
      .ok (clauses.map fun p => (p.1.reread, p.2)) := by
    refine Group.place_eq_ok_iff.2 ⟨?_, ?_⟩
    · rw [Group.reread, ← hclauses, List.map_map, List.map_map]
      rfl
    · rw [List.forall_mem_map]
      intro p hp
      rw [Clause.reread, hnames.ofText_text_of_resolve (hresolve p hp)]
      exact hresolve p hp
  have hblocks : Block.ofClauses (clauses.map fun p => (p.1.reread, p.2)) =
      Block.stringizedEach (Block.ofClauses clauses) := by
    refine Block.ofClauses_reread fun p hp => hliterals p.1 ?_
    rw [← hclauses]
    exact List.mem_map_of_mem hp
  refine bind_eq_ok_iff.2 ⟨_, hplace', ?_⟩
  rw [hblocks]
  exact Block.compileAll_stringized hall

/-- The request that is read back compiles to the same condition. -/
theorem Request.compile_reread (hnames : catalog.Dotless root) {limits : Limits} {x : Request}
    {condition : Condition} (hliterals : ∀ g ∈ x.groups, ∀ c ∈ g.clauses, c.literal.IsInRange)
    (h : x.compile catalog root limits = .ok condition) :
    x.reread.compile catalog root limits = .ok condition := by
  have hcount : x.reread.clauseCount = x.clauseCount := by
    simp only [clauseCount, reread, Group.reread, List.foldr_map, List.length_map]
  have hfilled : x.reread.filledGroups = x.filledGroups.map Group.reread := by
    simp only [filledGroups, reread, List.filter_map, Function.comp_def, Group.isEmpty,
      Group.reread, List.isEmpty_map]
  have hle := clauseCount_le_of_compile h
  rw [compile_of_le hle] at h
  obtain ⟨conditions, hconditions, rfl⟩ := map_eq_ok_iff.1 h
  rw [compile_of_le (hcount ▸ hle), hfilled]
  refine map_eq_ok_iff.2 ⟨conditions, ?_, rfl⟩
  rw [mapM_eq_ok_iff] at hconditions ⊢
  rw [List.forall₂_map_left_iff]
  rw [List.forall₂_iff_zip] at hconditions ⊢
  refine ⟨hconditions.1, fun {g compiled} hpair => ?_⟩
  obtain ⟨condition, hcondition, hcompiled⟩ := map_eq_ok_iff.1 (hconditions.2 hpair)
  have hg : g ∈ x.groups := List.mem_of_mem_filter (List.of_mem_zip hpair).1
  exact map_eq_ok_iff.2
    ⟨condition, Group.compile_reread hnames (hliterals g hg) hcondition, hcompiled⟩

/-- **Requests sent as text keep their meaning.** Where no field that can be reached has a dot in
its name, the text of a request that compiles denotes a request that compiles to the same condition,
so that both hold of the same records. -/
theorem compile_of_text {limits : Limits} {x : Request} {condition : Condition}
    (hnames : catalog.Dotless root)
    (hliterals : ∀ g ∈ x.groups, ∀ c ∈ g.clauses, c.literal.IsInRange ∧ c.literal.ReadsBack)
    (h : x.compile catalog root limits = .ok condition) :
    Request.ofText x.text = .ok x.reread ∧ x.reread.compile catalog root limits = .ok condition :=
  ⟨(Request.reads fun g hg c hc => (hliterals g hg c hc).2).ofText,
    Request.compile_reread hnames (fun g hg c hc => (hliterals g hg c hc).1) h⟩

/-- A request with segments spelled freely, an enum member, a float and a whole number. -/
def postedRequest : Request := ⟨[
  ⟨[⟨.ofSegments ["Orders", " STATE"], .equal, .enum "shipped", .and⟩,
    ⟨.ofText "orders.total", .greaterOrEqual, .float (.nearest false (199 * Binary64.one) 2),
      .and⟩], .and⟩,
  ⟨[⟨.ofText "address.ZipCode", .startsWith, .str "1\"0", .or⟩,
    ⟨.ofText "age", .notEqual, .int ⟨30, by decide, by decide⟩, .and⟩], .or⟩]⟩

theorem compile_of_text_postedRequest :
    ∃ condition, postedRequest.compile Sample.catalog .customer .standard = .ok condition ∧
      Request.ofText postedRequest.text = .ok postedRequest.reread ∧
      postedRequest.reread.compile Sample.catalog .customer .standard = .ok condition ∧
      postedRequest.reread ≠ postedRequest := by
  obtain ⟨condition, h, -⟩ := exists_ok_of_any
    (show (postedRequest.compile Sample.catalog .customer .standard).toOption.any
      (fun _ => true) = true by decide +kernel)
  have hnames : Sample.catalog.Dotless .customer := by
    intro reference _
    cases reference <;> decide +kernel
  have hliterals : ∀ g ∈ postedRequest.groups, ∀ c ∈ g.clauses,
      c.literal.IsInRange ∧ c.literal.ReadsBack := by decide +kernel
  obtain ⟨hread, hcompile⟩ := compile_of_text hnames hliterals h
  exact ⟨condition, h, hread, hcompile, by decide +kernel⟩

end RecordFilter
