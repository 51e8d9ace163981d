import Mathlib.Tactic.MkIffOfInductiveProp
import RecordFilter.Proofs.Blocks
import RecordFilter.Proofs.Coercing
import RecordFilter.Proofs.Routes

/-!
# When a value can be tested

A literal and an operator make a test of the values of a type in two cases (`Testable`): null is
looked for in a nullable type, by one of the operators that ask whether something is equal, or the
literal has a value of the type and the operator goes with it. Otherwise there is one error
(`Refused`). A literal without a value comes first, whatever the operator. After that null is only
named where the operator could have been asked of the type, and else the type is.

Both are exact: `compileTest_outcome`.
-/

namespace RecordFilter

variable {ρ : Type} {catalog : Catalog ρ} {type : FieldType ρ} {operator : Operator}
  {literal : Literal}

/-! ## Operators and types -/

/-- An operator goes with a type: textual ones with strings, and orderings with ordered types. -/
@[mk_iff] structure Operator.GoesWith (operator : Operator) (type : FieldType ρ) : Prop where
  string : operator.isTextual = true → type.isString = true
  ordered : operator.isOrdering = true → type.isOrderable = true

/-- Whether things are equal can be asked of every type. -/
theorem Operator.goesWith_of_equality (h : operator = .equal ∨ operator = .notEqual)
    (type : FieldType ρ) : operator.GoesWith type := by
  rcases h with rfl | rfl <;> exact ⟨nofun, nofun⟩

theorem FieldType.isOrderable_of_isString (h : type.isString = true) :
    type.isOrderable = true := by
  unfold isString at h
  unfold isOrderable
  split at h
  · next heq => rw [heq]
  · cases h

/-- The operators that do not ask whether things are equal only go with ordered types. -/
theorem Operator.GoesWith.isOrderable (h : operator.GoesWith type)
    (hop : ¬ (operator = .equal ∨ operator = .notEqual)) : type.isOrderable = true := by
  cases operator with
  | equal => exact absurd (.inl rfl) hop
  | notEqual => exact absurd (.inr rfl) hop
  | greater | greaterOrEqual | less | lessOrEqual => exact h.ordered rfl
  | contains | startsWith | endsWith => exact FieldType.isOrderable_of_isString (h.string rfl)

/-! ## Literals with a value -/

/-- The only error of a conversion. -/
theorem Literal.eq_conversion_of_coerce {error : FilterError}
    (h : literal.coerce catalog type = .error error) :
    error = .conversion literal.text (type.unwrap.name catalog) := by
  by_cases hnull : literal = .null
  · subst hnull
    rw [coerce_null] at h
    split at h
    · cases h
    · next hoptional =>
      cases h
      -- A type that is not nullable has no wrappers to begin with.
      cases type with
      | optional inner => exact absurd rfl hoptional
      | _ => rfl
  · cases hto : literal.coerceTo? type.unwrap with
    | some coerced => rw [(coerce_eq_ok_iff (isNull_of_ne hnull)).2 hto] at h; cases h
    | none => rw [coerce_of_none (isNull_of_ne hnull) hto] at h; cases h; rfl

theorem Literal.coerce_null_eq_ok_iff {coerced : Coerced} :
    null.coerce catalog type = .ok coerced ↔ type.isOptional = true ∧ coerced = .null := by
  rw [coerce_null]
  cases type.isOptional <;> simp [eq_comm]

/-- A literal other than null has no value that is null, and none of a record or a list. -/
theorem Literal.value_of_coerce (hnull : literal ≠ .null) {coerced : Coerced}
    (h : literal.coerce catalog type = .ok coerced) :
    coerced.isNull = false ∧ type.isComposite = false := by
  have hvalue := represents_of_coerceTo? ((coerce_eq_ok_iff (isNull_of_ne hnull)).1 h)
  refine ⟨?_, hvalue.isComposite_eq_false⟩
  cases coerced with
  | null => exact absurd rfl hvalue.ne_null
  | _ => rfl

/-- Every ordered type has a value that is written as a literal. -/
theorem FieldType.exists_literal (catalog : Catalog ρ) (h : type.isOrderable = true) :
    ∃ literal coerced, literal ≠ Literal.null ∧ literal.coerce catalog type = .ok coerced := by
  suffices hto : ∃ literal coerced, Literal.isNull literal = false ∧
      literal.coerceTo? type.unwrap = some coerced by
    obtain ⟨literal, coerced, hnull, hto⟩ := hto
    refine ⟨literal, coerced, ?_, (Literal.coerce_eq_ok_iff hnull).2 hto⟩
    rintro rfl
    cases hnull
  unfold isOrderable at h
  split at h
  · next kind heq =>
    have hzero : (Literal.int (.clamp 0)).toInt? kind = some (.clamp 0) := by cases kind <;> decide
    exact ⟨.int (.clamp 0), .int (.clamp 0), rfl, by rw [heq, Literal.coerceTo?, hzero]; rfl⟩
  · next kind heq =>
    have hzero : (Literal.float .zero).toFloat? kind = some .zero := by
      cases kind <;> decide +kernel
    exact ⟨.float .zero, .float .zero, rfl, by rw [heq, Literal.coerceTo?, hzero]; rfl⟩
  · next heq => exact ⟨.str "", .ofText "", rfl, by rw [heq]; rfl⟩
  · next heq =>
    obtain ⟨moment, hmoment⟩ : ∃ moment, Moment.instantOfChars? "2000-01-01".toList = some moment :=
      Option.isSome_iff_exists.1 (by decide +kernel)
    exact ⟨.str "2000-01-01", .dateTime moment, rfl, by
      rw [heq, Literal.coerceTo?, Literal.asText?, Option.bind_some, hmoment]; rfl⟩
  · next heq =>
    obtain ⟨moment, hmoment⟩ : ∃ moment, Moment.ofChars? "2000-01-01".toList = some moment :=
      Option.isSome_iff_exists.1 (by decide +kernel)
    exact ⟨.str "2000-01-01", .localDateTime moment, rfl, by
      rw [heq, Literal.coerceTo?, Literal.asText?, Option.bind_some, hmoment]; rfl⟩
  · next heq =>
    obtain ⟨date, hdate⟩ : ∃ date, Date.ofChars? "2000-01-01".toList = some date :=
      Option.isSome_iff_exists.1 (by decide +kernel)
    exact ⟨.str "2000-01-01", .date date, rfl, by
      rw [heq, Literal.coerceTo?, Literal.asText?, Option.bind_some, hdate]; rfl⟩
  · cases h

/-! ## Objections to a test -/

namespace ValueTest

/-- What is objected to where null is looked for in a nullable type. -/
theorem objection?_null (hoptional : type.isOptional = true) (error : FilterError) :
    objection? catalog type .null operator = some error ↔
      (¬ operator.GoesWith type ∧ error = .unsupportedOperator operator (type.name catalog)) ∨
      (operator.GoesWith type ∧ ¬ (operator = .equal ∨ operator = .notEqual) ∧
        error = .unsupportedOperator operator "null") := by
  rw [Operator.goesWith_iff]
  unfold objection?
  simp only [Coerced.isNull, hoptional]
  grind

/-- What is objected to where a value of the type is looked for. -/
theorem objection?_value {coerced : Coerced} (hnull : coerced.isNull = false)
    (hcomposite : type.isComposite = false) (error : FilterError) :
    objection? catalog type coerced operator = some error ↔
      ¬ operator.GoesWith type ∧ error = .unsupportedOperator operator (type.name catalog) := by
  rw [Operator.goesWith_iff]
  unfold objection?
  simp only [hnull, hcomposite]
  grind

theorem build_eq_error_iff {coerced : Coerced} {error : FilterError} :
    build catalog type coerced operator = .error error ↔
      objection? catalog type coerced operator = some error := by
  unfold build
  cases objection? catalog type coerced operator <;> simp

end ValueTest

/-! ## The outcome -/

/-- A literal and an operator make a test of the values of a type. -/
inductive Testable (catalog : Catalog ρ) (type : FieldType ρ) (operator : Operator) :
    Literal → Prop
  /-- Null is looked for in a nullable type. -/
  | presence : type.isOptional = true → operator = .equal ∨ operator = .notEqual →
    Testable catalog type operator .null
  /-- A value of the type is compared with. -/
  | comparison {literal : Literal} {coerced : Coerced} : literal ≠ .null →
    literal.coerce catalog type = .ok coerced → operator.GoesWith type →
    Testable catalog type operator literal

/-- The operator can be asked of the type with some literal other than null. -/
def Operator.IsAskedOf (operator : Operator) (catalog : Catalog ρ) (type : FieldType ρ) : Prop :=
  ∃ literal, literal ≠ .null ∧ Testable catalog type operator literal

/-- The error where a literal and an operator make no test of the values of a type. -/
inductive Refused (catalog : Catalog ρ) (type : FieldType ρ) (operator : Operator)
    (literal : Literal) : FilterError → Prop
  /-- The literal has no value of the type. -/
  | conversion : (∀ coerced, literal.coerce catalog type ≠ .ok coerced) →
    Refused catalog type operator literal (.conversion literal.text (type.unwrap.name catalog))
  /-- The operator goes with the type, but not with null. -/
  | null {coerced : Coerced} : literal.coerce catalog type = .ok coerced →
    ¬ Testable catalog type operator literal →
    literal = .null ∧ operator.IsAskedOf catalog type →
    Refused catalog type operator literal (.unsupportedOperator operator "null")
  /-- The operator does not go with the type. -/
  | type {coerced : Coerced} : literal.coerce catalog type = .ok coerced →
    ¬ Testable catalog type operator literal →
    ¬ (literal = .null ∧ operator.IsAskedOf catalog type) →
    Refused catalog type operator literal (.unsupportedOperator operator (type.name catalog))

theorem Testable.null_iff : Testable catalog type operator .null ↔
    type.isOptional = true ∧ (operator = .equal ∨ operator = .notEqual) := by
  constructor
  · intro h
    cases h with
    | presence hoptional hop => exact ⟨hoptional, hop⟩
    | comparison hnull => exact absurd rfl hnull
  · exact fun ⟨hoptional, hop⟩ => .presence hoptional hop

theorem Testable.value_iff (hnull : literal ≠ .null) : Testable catalog type operator literal ↔
    (∃ coerced, literal.coerce catalog type = .ok coerced) ∧ operator.GoesWith type := by
  constructor
  · intro h
    cases h with
    | presence => exact absurd rfl hnull
    | comparison _ hcoerced hgoes => exact ⟨⟨_, hcoerced⟩, hgoes⟩
  · exact fun ⟨⟨_, hcoerced⟩, hgoes⟩ => .comparison hnull hcoerced hgoes

/-- Beyond the question whether things are equal, an operator is asked of the types that it goes
with, for each of them has a literal. -/
theorem Operator.isAskedOf_iff (hop : ¬ (operator = .equal ∨ operator = .notEqual)) :
    operator.IsAskedOf catalog type ↔ operator.GoesWith type := by
  constructor
  · rintro ⟨literal, hnull, htestable⟩
    exact ((Testable.value_iff hnull).1 htestable).2
  · intro hgoes
    obtain ⟨literal, coerced, hnull, hcoerced⟩ :=
      FieldType.exists_literal catalog (hgoes.isOrderable hop)
    exact ⟨literal, hnull, .comparison hnull hcoerced hgoes⟩

/-- The error of a literal that has a value. -/
theorem refused_iff {coerced : Coerced} (h : literal.coerce catalog type = .ok coerced)
    (error : FilterError) : Refused catalog type operator literal error ↔
      ¬ Testable catalog type operator literal ∧
        ((literal = .null ∧ operator.IsAskedOf catalog type) ∧
            error = .unsupportedOperator operator "null" ∨
          ¬ (literal = .null ∧ operator.IsAskedOf catalog type) ∧
            error = .unsupportedOperator operator (type.name catalog)) := by
  constructor
  · intro hrefused
    cases hrefused with
    | conversion hnone => exact absurd h (hnone coerced)
    | null _ htestable hnull => exact ⟨htestable, .inl ⟨hnull, rfl⟩⟩
    | type _ htestable hnull => exact ⟨htestable, .inr ⟨hnull, rfl⟩⟩
  · rintro ⟨htestable, ⟨hnull, rfl⟩ | ⟨hnull, rfl⟩⟩
    · exact .null h htestable hnull
    · exact .type h htestable hnull

/-- What is objected to in a test is the error of the literal and the operator. -/
theorem objection?_eq_some_iff {coerced : Coerced} (h : literal.coerce catalog type = .ok coerced)
    (error : FilterError) :
    ValueTest.objection? catalog type coerced operator = some error ↔
      Refused catalog type operator literal error := by
  rw [refused_iff h]
  by_cases hnull : literal = .null
  · subst hnull
    obtain ⟨hoptional, rfl⟩ := Literal.coerce_null_eq_ok_iff.1 h
    rw [ValueTest.objection?_null hoptional, Testable.null_iff]
    by_cases hop : operator = .equal ∨ operator = .notEqual
    · have hgoes := Operator.goesWith_of_equality hop type
      simp only [hop, hgoes, hoptional, not_true_eq_false, false_and, and_false, and_self, or_self]
    · simp only [hop, hoptional, Operator.isAskedOf_iff hop, and_false, not_false_eq_true,
        true_and, or_comm]
  · obtain ⟨hvalue, hcomposite⟩ := Literal.value_of_coerce hnull h
    rw [ValueTest.objection?_value hvalue hcomposite, Testable.value_iff hnull]
    simp only [hnull, h, Except.ok.injEq, exists_eq', false_and, not_false_eq_true, true_and,
      false_or]

namespace Block

theorem compileTest_eq_error_iff {chain : List String} {error : FilterError} :
    compileTest catalog chain type operator literal = .error error ↔
      Refused catalog type operator literal error := by
  have hbuild (coerced : Coerced) : (do
      let test ← ValueTest.build catalog type coerced operator
      return Condition.test chain test) = Except.error error ↔
        ValueTest.objection? catalog type coerced operator = some error := by
    rw [← ValueTest.build_eq_error_iff]
    exact map_eq_error_iff
  rw [compileTest, bind_eq_error_iff]
  simp only [hbuild]
  constructor
  · rintro (hcoerce | ⟨coerced, hcoerce, hobjection⟩)
    · rw [Literal.eq_conversion_of_coerce hcoerce]
      refine .conversion fun coerced hok => ?_
      rw [hcoerce] at hok
      cases hok
    · exact (objection?_eq_some_iff hcoerce error).1 hobjection
  · intro hrefused
    cases hcoerce : literal.coerce catalog type with
    | ok coerced => exact .inr ⟨coerced, rfl, (objection?_eq_some_iff hcoerce error).2 hrefused⟩
    | error other =>
      refine .inl ?_
      cases hrefused with
      | conversion => rw [Literal.eq_conversion_of_coerce hcoerce]
      | null hok | type hok => rw [hcoerce] at hok; cases hok

theorem exists_compileTest_ok_iff {chain : List String} :
    (∃ condition, compileTest catalog chain type operator literal = .ok condition) ↔
      Testable catalog type operator literal := by
  rw [← not_iff_not, not_ok_iff_error]
  simp only [compileTest_eq_error_iff]
  constructor
  · rintro ⟨error, hrefused⟩ htestable
    cases hrefused with
    | conversion hnone =>
      cases htestable with
      | presence hoptional => exact hnone .null (Literal.coerce_null_eq_ok_iff.2 ⟨hoptional, rfl⟩)
      | comparison _ hcoerce => exact hnone _ hcoerce
    | null _ hnot | type _ hnot => exact hnot htestable
  · intro hnot
    cases hcoerce : literal.coerce catalog type with
    | ok coerced =>
      by_cases hnull : literal = .null ∧ operator.IsAskedOf catalog type
      · exact ⟨_, .null hcoerce hnot hnull⟩
      · exact ⟨_, .type hcoerce hnot hnull⟩
    | error other =>
      refine ⟨_, .conversion fun coerced hok => ?_⟩
      rw [hcoerce] at hok
      cases hok

/-- **When a value can be tested.** The test at the end of a path can be made exactly of what is
`Testable`, and otherwise the one error is what `Refused` says. A path never ends at a list, and no
literal but null has a value of a record. -/
theorem compileTest_outcome (catalog : Catalog ρ) (chain : List String) (type : FieldType ρ)
    (operator : Operator) (literal : Literal) :
    ((∃ condition, compileTest catalog chain type operator literal = .ok condition) ↔
      Testable catalog type operator literal) ∧
    (∀ error, compileTest catalog chain type operator literal = .error error ↔
      Refused catalog type operator literal error) ∧
    (∀ coerced, literal ≠ .null → literal.coerce catalog type = .ok coerced →
      type.isComposite = false) ∧
    ∀ maxDepth root path r, catalog.resolve maxDepth root path = .ok r →
      r.leafType.element? = none := by
  refine ⟨exists_compileTest_ok_iff, fun error => compileTest_eq_error_iff,
    fun coerced hnull h => (Literal.value_of_coerce hnull h).2, fun maxDepth root path r h => ?_⟩
  have houtcome : catalog.Outcome maxDepth root path (.ok r) :=
    h ▸ Catalog.outcome_resolve maxDepth root path
  cases houtcome with
  | found _ _ hleads => exact hleads.depicts.leaf

/-- Asking whether null is greater: a number could be, an address could not. -/
theorem compileTest_outcome_greater_null :
    Refused Sample.catalog (.optional (.int .int32)) .greater .null
      (.unsupportedOperator .greater "null") ∧
    Refused Sample.catalog (.optional (.record .address)) .greater .null
      (.unsupportedOperator .greater "Option<Address>") ∧
    Testable Sample.catalog (.optional (.record .address)) .notEqual .null :=
  ⟨((compileTest_outcome _ ["age"] _ _ _).2.1 _).1 (by decide),
    ((compileTest_outcome _ ["address"] _ _ _).2.1 _).1 (by decide),
    (compileTest_outcome _ ["address"] _ _ _).1.1 ⟨.test ["address"] .isNotNull, by decide⟩⟩

end Block

end RecordFilter
