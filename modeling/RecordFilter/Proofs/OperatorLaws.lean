import RecordFilter.Proofs.Evaluation
import RecordFilter.Proofs.FoldedText

/-!
# How the operators are related

Requests of a single clause that differ in nothing but the operator give related answers. Some laws
hold of the test of one value: comparing it with a literal that is not null comes to one order or to
none (`passes_eq_accepts`), being different is not being equal (`passes_notEqual`), and the textual
operators follow from each other as the relations of texts do (`Operator.Relates.of_mem`). A path
may lead to many values, of which one has to pass, so that of these laws only those survive that
say when one test or another is passed.

`operators_related`: the laws that remain, and the ones that hold beside them where a path crosses
no collection or leads to text.
-/

namespace RecordFilter

variable {ρ : Type} {catalog : Catalog ρ}

/-! ## One value -/

namespace Operator

/-- The operators of which a value can meet only one. -/
def exclusive : List Operator := [less, equal, greater]

/-- The operators on text of which the second holds wherever the first one does. -/
def textImplications : List (Operator × Operator) :=
  [(equal, startsWith), (equal, endsWith), (startsWith, contains), (endsWith, contains),
    (startsWith, greaterOrEqual)]

/-- Where there is no order, nothing holds but being different. -/
theorem accepts_none (op : Operator) : op.accepts none = (op == notEqual) := by
  cases op <;> rfl

theorem isTextual_of_mem {op : Operator} (h : op ∈ exclusive) : op.isTextual = false :=
  (by decide : ∀ op ∈ exclusive, op.isTextual = false) op h

theorem ne_notEqual_of_exclusive {op : Operator} (h : op ∈ exclusive) : op ≠ notEqual :=
  (by decide : ∀ op ∈ exclusive, op ≠ notEqual) op h

theorem ne_notEqual_of_mem {op op' : Operator} (h : (op, op') ∈ textImplications) :
    op ≠ notEqual ∧ op' ≠ notEqual :=
  (by decide : ∀ pair ∈ textImplications, pair.1 ≠ notEqual ∧ pair.2 ≠ notEqual) _ h

theorem eq_of_accepts {op op' : Operator} (h : op ∈ exclusive) (h' : op' ∈ exclusive)
    {order : Option Ordering} (ha : op.accepts order = true) (ha' : op'.accepts order = true) :
    op = op' := by
  simp only [exclusive, List.mem_cons, List.not_mem_nil, or_false] at h h'
  rcases h with rfl | rfl | rfl <;> rcases h' with rfl | rfl | rfl <;>
    simp_all [accepts]

/-- Two comparable values meet just one of the exclusive operators, and others none. -/
theorem count_accepts_eq_one_iff (order : Option Ordering) :
    [less.accepts order, equal.accepts order, greater.accepts order].count true = 1 ↔
      order ≠ none := by
  cases order with
  | none => decide
  | some order => cases order <;> decide

theorem Relates.of_mem {op op' : Operator} (h : (op, op') ∈ textImplications) {s t : List Char}
    (hs : op.Relates s t) : op'.Relates s t := by
  simp only [textImplications, List.mem_cons, Prod.mk.injEq, List.not_mem_nil, or_false] at h
  rcases h with ⟨rfl, rfl⟩ | ⟨rfl, rfl⟩ | ⟨rfl, rfl⟩ | ⟨rfl, rfl⟩ | ⟨rfl, rfl⟩
  · exact Eq.subst hs (List.prefix_refl s)
  · exact Eq.subst hs (List.suffix_refl s)
  · exact List.IsPrefix.isInfix hs
  · exact List.IsSuffix.isInfix hs
  · obtain ⟨rest, rfl⟩ := hs
    cases rest with
    | nil => exact .inr (List.append_nil t)
    | cons c rest => exact .inl (Text.lt_append_cons t c rest)

end Operator

namespace ValueTest

/-- Null can only be tested for being equal or not. -/
theorem ne_null_of_build {type : FieldType ρ} {coerced : Coerced} {operator : Operator}
    {test : ValueTest} (h : build catalog type coerced operator = .ok test)
    (he : operator ≠ .equal) (hn : operator ≠ .notEqual) : coerced ≠ .null := by
  rintro rfl
  have hobjection := objection?_eq_none_iff.1 (build_eq_ok_iff.1 h).1
  exact (hobjection.2.2.2 rfl).elim he hn

theorem passes_notEqual (coerced : Coerced) (v : Value) :
    (ofCoerced coerced .notEqual).passes v = !(ofCoerced coerced .equal).passes v := by
  cases coerced with
  | str raw folded => cases v <;> rfl
  | _ => rfl

theorem textHolds_eq_accepts {operator : Operator} (hop : operator.isTextual = false)
    (s t : List Char) :
    textHolds operator s t = operator.accepts (some (Text.compareFolded s t)) := by
  unfold textHolds Text.eqFolded
  generalize Text.compareFolded s t = order
  cases operator with
  | contains | startsWith | endsWith => cases hop
  | _ => cases order <;> rfl

/-- An operator that is not textual looks at nothing but the order of a value and a literal that is
not null. -/
theorem passes_eq_accepts {coerced : Coerced} {operator : Operator} (hc : coerced ≠ .null)
    (hop : operator.isTextual = false) (v : Value) :
    (ofCoerced coerced operator).passes v = operator.accepts (compareField v coerced) := by
  cases coerced with
  | null => exact absurd rfl hc
  | str raw folded =>
    cases v with
    | str s => exact textHolds_eq_accepts hop s.toList folded.toList
    -- What is no text fails the test of text, and has no order with a text either.
    | _ => exact (operator.accepts_none).symm
  | _ => rfl

/-- Operators on text hold of text alone, but for being different. -/
theorem passes_text_iff {operator : Operator} (hop : operator ≠ .notEqual) (folded : String)
    (v : Value) :
    (text operator folded).passes v = true ↔
      ∃ s, v = .str s ∧ operator.Relates (Text.foldChars s.toList) folded.toList := by
  cases v with
  | str s =>
    show textHolds operator s.toList folded.toList = true ↔ _
    simp [textHolds_iff_relates]
  | _ =>
    show (operator == .notEqual) = true ↔ _
    simp [hop]

end ValueTest

theorem compareField_null (coerced : Coerced) : compareField .null coerced = none := by
  cases coerced <;> rfl

theorem compareField_nan_left (coerced : Coerced) : compareField (.float .nan) coerced = none := by
  cases coerced <;> rfl

theorem compareField_nan_right (v : Value) : compareField v (.float .nan) = none := by
  have hnan (a : Binary64) : a.compare? .nan = none := by
    have hplace : Binary64.nan.place? = none := rfl
    rw [Binary64.compare?, hplace]
    cases a.place? <;> rfl
  cases v with
  | int a => exact hnan (.ofInt a.val)
  | float a => exact hnan a
  | _ => rfl

/-! ## Requests of a single clause -/

/-- A request of a single clause compiles and gives an answer on a value. -/
def Answers (catalog : Catalog ρ) (root : ρ) (path : Path) (literal : Literal) (v : Value)
    (operator : Operator) (answer : Bool) : Prop :=
  ∃ (request : Request) (combinator : Combinator) (limits : Limits) (condition : Condition),
    request.groups.flatMap (·.clauses) = [⟨path, operator, literal, combinator⟩] ∧
    request.compile catalog root limits = .ok condition ∧ condition.holds v = answer

namespace Answers

variable {root : ρ} {path : Path} {literal : Literal} {v : Value} {operator : Operator}
  {answer : Bool} {r : Resolved ρ} {coerced : Coerced}

theorem exists_resolved (h : Answers catalog root path literal v operator answer) :
    ∃ r coerced, catalog.follow path.segments (.record root) = .ok r ∧
      literal.coerce catalog r.leafType = .ok coerced := by
  obtain ⟨request, combinator, limits, condition, hclause, hcompile, -⟩ := h
  obtain ⟨r, test, hr, htest, -⟩ := Request.holds_of_single hclause hcompile
  obtain ⟨coerced, hcoerced, -⟩ := Clause.test_eq_ok_iff.1 htest
  exact ⟨r, coerced, Catalog.follow_of_resolve hr, hcoerced⟩

/-- The answer is whether one of the values that the path reaches passes the clause's test. -/
theorem eq_any (h : Answers catalog root path literal v operator answer)
    (hr : catalog.follow path.segments (.record root) = .ok r)
    (hc : literal.coerce catalog r.leafType = .ok coerced) :
    (∃ test, ValueTest.build catalog r.leafType coerced operator = .ok test) ∧
      answer = (catalog.reach v (.record root) path.segments).any
        (ValueTest.ofCoerced coerced operator).passes := by
  obtain ⟨request, combinator, limits, condition, hclause, hcompile, rfl⟩ := h
  obtain ⟨r', test, hr', htest, hholds⟩ := Request.holds_of_single hclause hcompile
  obtain ⟨coerced', hcoerced, hbuild⟩ := Clause.test_eq_ok_iff.1 htest
  have hfollow := Catalog.follow_of_resolve hr'
  cases hr.symm.trans hfollow
  cases hc.symm.trans hcoerced
  refine ⟨⟨test, hbuild⟩, ?_⟩
  rw [hholds, Catalog.leaves_of_follow hr, (ValueTest.build_eq_ok_iff.1 hbuild).2]

theorem exists_coerced (h : Answers catalog root path literal v operator answer)
    (hr : catalog.follow path.segments (.record root) = .ok r) :
    ∃ coerced, literal.coerce catalog r.leafType = .ok coerced := by
  obtain ⟨r', coerced, hr', hcoerced⟩ := h.exists_resolved
  cases hr.symm.trans hr'
  exact ⟨coerced, hcoerced⟩

/-- Only equality and its opposite are answered for null. -/
theorem ne_null (h : Answers catalog root path literal v operator answer)
    (hr : catalog.follow path.segments (.record root) = .ok r)
    (hc : literal.coerce catalog r.leafType = .ok coerced) (he : operator ≠ .equal)
    (hn : operator ≠ .notEqual) : coerced ≠ .null := by
  obtain ⟨⟨test, hbuild⟩, -⟩ := h.eq_any hr hc
  exact ValueTest.ne_null_of_build hbuild he hn

/-- An ordering that includes equality holds where the strict one or equality does. -/
theorem eq_or {op strict : Operator} {a b c : Bool} (hop : op.isTextual = false)
    (hstrict : strict ∈ Operator.exclusive) (hne : strict ≠ .equal)
    (haccepts : ∀ order, op.accepts order = (strict.accepts order || Operator.equal.accepts order))
    (ha : Answers catalog root path literal v op a)
    (hb : Answers catalog root path literal v strict b)
    (hc : Answers catalog root path literal v .equal c) : a = (b || c) := by
  obtain ⟨r, coerced, hr, hcoerced⟩ := ha.exists_resolved
  have hnull : coerced ≠ .null :=
    hb.ne_null hr hcoerced hne (Operator.ne_notEqual_of_exclusive hstrict)
  obtain ⟨-, rfl⟩ := ha.eq_any hr hcoerced
  obtain ⟨-, rfl⟩ := hb.eq_any hr hcoerced
  obtain ⟨-, rfl⟩ := hc.eq_any hr hcoerced
  have hp : ∀ x, (ValueTest.ofCoerced coerced op).passes x =
      ((ValueTest.ofCoerced coerced strict).passes x ||
        (ValueTest.ofCoerced coerced .equal).passes x) := by
    intro x
    rw [ValueTest.passes_eq_accepts hnull hop,
      ValueTest.passes_eq_accepts hnull (Operator.isTextual_of_mem hstrict),
      ValueTest.passes_eq_accepts hnull rfl, haccepts]
  rw [Bool.eq_iff_iff, Bool.or_eq_true]
  simp only [List.any_eq_true, hp, Bool.or_eq_true, and_or_left, exists_or]

/-- One of two opposite tests is passed as soon as the path reaches a value. -/
theorem or_eq_true_iff {a b : Bool} (ha : Answers catalog root path literal v .equal a)
    (hb : Answers catalog root path literal v .notEqual b) :
    (a || b) = true ↔ catalog.reach v (.record root) path.segments ≠ [] := by
  obtain ⟨r, coerced, hr, hcoerced⟩ := ha.exists_resolved
  obtain ⟨-, rfl⟩ := ha.eq_any hr hcoerced
  obtain ⟨-, rfl⟩ := hb.eq_any hr hcoerced
  cases catalog.reach v (.record root) path.segments with
  | nil => simp
  | cons x values =>
    simp only [List.any_cons, ValueTest.passes_notEqual]
    cases (ValueTest.ofCoerced coerced .equal).passes x <;> simp

/-- Exclusive operators are not both answered for null: only one of them is equality. -/
theorem ne_null_of_exclusive {op op' : Operator} (hop : op ∈ Operator.exclusive)
    (hop' : op' ∈ Operator.exclusive) (hne : op ≠ op') {a b : Bool}
    (ha : Answers catalog root path literal v op a)
    (hb : Answers catalog root path literal v op' b)
    (hr : catalog.follow path.segments (.record root) = .ok r)
    (hc : literal.coerce catalog r.leafType = .ok coerced) : coerced ≠ .null := by
  by_cases he : op = .equal
  · subst he
    exact hb.ne_null hr hc hne.symm (Operator.ne_notEqual_of_exclusive hop')
  · exact ha.ne_null hr hc he (Operator.ne_notEqual_of_exclusive hop)

/-- Where a path meets no collection, it reaches a single value, on which each answer is the test
of that value. -/
theorem eq_passes (h : Answers catalog root path literal v operator answer)
    (hr : catalog.follow path.segments (.record root) = .ok r)
    (hc : literal.coerce catalog r.leafType = .ok coerced) {x : Value}
    (hx : catalog.reach v (.record root) path.segments = [x]) :
    answer = (ValueTest.ofCoerced coerced operator).passes x := by
  obtain ⟨-, rfl⟩ := h.eq_any hr hc
  rw [hx, List.any_cons, List.any_nil, Bool.or_false]

/-- On text, what follows for one value follows for the answers. -/
theorem of_mem_textImplications {op op' : Operator} (hmem : (op, op') ∈ Operator.textImplications)
    (hr : catalog.follow path.segments (.record root) = .ok r) (hs : r.leafType.isString = true)
    (hl : literal ≠ .null) {a b : Bool} (ha : Answers catalog root path literal v op a)
    (hb : Answers catalog root path literal v op' b) (h : a = true) : b = true := by
  have hnull : literal.isNull = false := by
    cases literal <;> first | rfl | exact absurd rfl hl
  have hcoerced := Literal.coerce_of_isString catalog hs hnull
  obtain ⟨-, rfl⟩ := ha.eq_any hr hcoerced
  obtain ⟨-, rfl⟩ := hb.eq_any hr hcoerced
  obtain ⟨x, hx, hpasses⟩ := List.any_eq_true.1 h
  refine List.any_eq_true.2 ⟨x, hx, ?_⟩
  obtain ⟨s, rfl, hrelates⟩ :=
    (ValueTest.passes_text_iff (Operator.ne_notEqual_of_mem hmem).1 _ x).1 hpasses
  exact (ValueTest.passes_text_iff (Operator.ne_notEqual_of_mem hmem).2 _ _).2
    ⟨s, rfl, hrelates.of_mem hmem⟩

end Answers

/-- A value that a path reaches on a conforming record is incomparable with the literal only if it
is null or one of them is not-a-number. -/
theorem compareField_eq_none_iff_of_conforms {root : ρ} {segments : List String} {r : Resolved ρ}
    {literal : Literal} {coerced : Coerced} {v x : Value}
    (hr : catalog.follow segments (.record root) = .ok r)
    (hc : literal.coerce catalog r.leafType = .ok coerced) (hne : coerced ≠ .null)
    (hv : Conforms catalog (.record root) v) (hx : x ∈ catalog.reach v (.record root) segments) :
    compareField x coerced = none ↔ x = .null ∨ x = .float .nan ∨ coerced = .float .nan := by
  constructor
  · intro h
    have hfits : catalog.Fits [] (.record root) v := .inl hv
    rw [← Catalog.leaves_of_follow hr] at hx
    rcases Catalog.leaves_of_fits hr hfits x hx with ⟨rfl, -⟩ | hfamily
    · exact .inl rfl
    · have hliteral := (Literal.family?_of_coerce hc).resolve_left hne
      exact .inr (compareField_eq_none hfamily hliteral h)
  · rintro (rfl | rfl | rfl)
    · exact compareField_null coerced
    · exact compareField_nan_left coerced
    · exact compareField_nan_right x

/-- **How operators are related.** Take requests of one clause each, all with the same path and
literal, that compile, and their answers on a conforming record. An ordering that includes equality
holds where the strict one or equality does. Being equal or being different holds where the path
reaches any value. If the path meets no collection, being different is the opposite of being equal;
of being less, equal and greater at most one holds; and one of them does hold, if the literal is
ordered at all, unless the value at the leaf is null or one of the two is not-a-number. On text,
being equal implies the same start and end, either of these implies containing, and the same start
implies not coming before. -/
theorem operators_related {root : ρ} (path : Path) (literal : Literal) {v : Value}
    (hv : Conforms catalog (.record root) v) :
    (∀ a b c, Answers catalog root path literal v .greaterOrEqual a →
      Answers catalog root path literal v .greater b →
      Answers catalog root path literal v .equal c → a = (b || c)) ∧
    (∀ a b c, Answers catalog root path literal v .lessOrEqual a →
      Answers catalog root path literal v .less b →
      Answers catalog root path literal v .equal c → a = (b || c)) ∧
    (∀ a b, Answers catalog root path literal v .equal a →
      Answers catalog root path literal v .notEqual b →
      ((a || b) = true ↔ catalog.reach v (.record root) path.segments ≠ [])) ∧
    ∀ maxDepth r, catalog.resolve maxDepth (.record root) path = .ok r →
      (r.depth = 0 →
        (∀ a b, Answers catalog root path literal v .equal a →
          Answers catalog root path literal v .notEqual b → b = !a) ∧
        (∀ op ∈ Operator.exclusive, ∀ op' ∈ Operator.exclusive, op ≠ op' → ∀ a b,
          Answers catalog root path literal v op a → Answers catalog root path literal v op' b →
          ¬ (a = true ∧ b = true)) ∧
        ∃ x, catalog.reach v (.record root) path.segments = [x] ∧
          ∀ a b c coerced, literal.coerce catalog r.leafType = .ok coerced →
            Answers catalog root path literal v .less a →
            Answers catalog root path literal v .equal b →
            Answers catalog root path literal v .greater c →
            ([a, b, c].count true = 1 ↔
              x ≠ .null ∧ x ≠ .float .nan ∧ coerced ≠ .float .nan)) ∧
      (r.leafType.isString = true → literal ≠ .null →
        ∀ op op', (op, op') ∈ Operator.textImplications → ∀ a b,
          Answers catalog root path literal v op a → Answers catalog root path literal v op' b →
          a = true → b = true) := by
  refine ⟨fun a b c => Answers.eq_or rfl (by decide) (by decide) fun _ => rfl,
    fun a b c => Answers.eq_or rfl (by decide) (by decide) fun _ => rfl,
    fun a b => Answers.or_eq_true_iff, fun maxDepth r hresolve => ?_⟩
  have hr := Catalog.follow_of_resolve hresolve
  refine ⟨fun hdepth => ?_, fun hs hl op op' hmem a b =>
    Answers.of_mem_textImplications hmem hr hs hl⟩
  obtain ⟨x, hx⟩ := Catalog.exists_reach_eq_singleton hr hdepth v
  refine ⟨?_, ?_, x, hx, ?_⟩
  · intro a b ha hb
    obtain ⟨coerced, hc⟩ := ha.exists_coerced hr
    rw [ha.eq_passes hr hc hx, hb.eq_passes hr hc hx, ValueTest.passes_notEqual]
  · rintro op hop op' hop' hne a b ha hb ⟨rfl, rfl⟩
    obtain ⟨coerced, hc⟩ := ha.exists_coerced hr
    have hnull : coerced ≠ .null := Answers.ne_null_of_exclusive hop hop' hne ha hb hr hc
    have hp := ha.eq_passes hr hc hx
    have hp' := hb.eq_passes hr hc hx
    rw [ValueTest.passes_eq_accepts hnull (Operator.isTextual_of_mem hop)] at hp
    rw [ValueTest.passes_eq_accepts hnull (Operator.isTextual_of_mem hop')] at hp'
    exact hne (Operator.eq_of_accepts hop hop' hp.symm hp'.symm)
  · intro a b c coerced hc ha hb hc'
    have hnull : coerced ≠ .null := ha.ne_null hr hc (by decide) (by decide)
    have hmem : x ∈ catalog.reach v (.record root) path.segments := by
      rw [hx]
      exact List.mem_singleton_self x
    rw [ha.eq_passes hr hc hx, hb.eq_passes hr hc hx, hc'.eq_passes hr hc hx,
      ValueTest.passes_eq_accepts hnull rfl, ValueTest.passes_eq_accepts hnull rfl,
      ValueTest.passes_eq_accepts hnull rfl, Operator.count_accepts_eq_one_iff, Ne,
      compareField_eq_none_iff_of_conforms hr hc hnull hv hmem, not_or, not_or]

/-- Trees with a label that stands in some relation to a text. -/
def labelRequest (operator : Operator) : Request where
  groups := [⟨[⟨.ofText "Label", operator, .str "BRANCH", .and⟩], .and⟩]

theorem answers_branch (operator : Operator) (answer : Bool)
    (h : ((labelRequest operator).compile Sample.catalog .node .standard).toOption.any
      (fun condition => condition.holds branch == answer) = true) :
    Answers Sample.catalog .node (.ofText "Label") (.str "BRANCH") branch operator answer := by
  obtain ⟨condition, hcompile, hanswer⟩ := exists_ok_of_any h
  exact ⟨labelRequest operator, .and, .standard, condition, rfl, hcompile, beq_iff_eq.1 hanswer⟩

/-- The label of a tree equals a text but for case. So the path reaches one value, which is no
null, and the label begins with the text if that is asked. -/
theorem operators_related_branch :
    Conforms Sample.catalog (.record .node) branch ∧
    Answers Sample.catalog .node (.ofText "Label") (.str "BRANCH") branch .equal true ∧
    (∃ x, Sample.catalog.reach branch (.record .node) (Path.ofText "Label").segments = [x] ∧
      x ≠ .null) ∧
    ∀ answer, Answers Sample.catalog .node (.ofText "Label") (.str "BRANCH") branch .startsWith
      answer → answer = true := by
  have hless := answers_branch .less false (by decide +kernel)
  have hequal := answers_branch .equal true (by decide +kernel)
  have hgreater := answers_branch .greater false (by decide +kernel)
  obtain ⟨r, hr, hshape⟩ := exists_ok_of_any
    (show (Sample.catalog.resolve 8 (.record .node) (.ofText "Label")).toOption.any
      (fun r => r.depth == 0 && r.leafType.isString) = true by decide +kernel)
  rw [Bool.and_eq_true, beq_iff_eq] at hshape
  obtain ⟨coerced, hc⟩ := hequal.exists_coerced (Catalog.follow_of_resolve hr)
  obtain ⟨hdirect, htext⟩ :=
    (operators_related (.ofText "Label") (.str "BRANCH") conforms_branch).2.2.2 8 r hr
  obtain ⟨-, -, x, hx, hone⟩ := hdirect hshape.1
  have hnull := ((hone _ _ _ coerced hc hless hequal hgreater).1 rfl).1
  exact ⟨conforms_branch, hequal, ⟨x, hx, hnull⟩, fun answer hstarts =>
    htext hshape.2 nofun .equal .startsWith (by decide) true answer hequal hstarts rfl⟩

end RecordFilter
