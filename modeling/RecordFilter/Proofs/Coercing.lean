import RecordFilter.Proofs.PathText
import RecordFilter.Proofs.SinglePrecision
import RecordFilter.Proofs.WholeNumbers

/-!
# What literals become

A literal other than null becomes a value of the field's type, optional wrappers apart: a whole
number within the bounds of its kind, a float that the precision has, the first member with the
name, the text itself with its folded form (`Coerced.Represents`). Such a value is settled: given
back as a literal it becomes itself again, since bounds, precision and name are kept
(`Represents.coerceTo?_of_literal?`). `coerce_value` puts this together.
-/

namespace RecordFilter

/-! ## Names with the same blanks -/

namespace Text

theorem isBlank_toLower (c : Char) : isBlank c.toLower = isBlank c := by
  rcases toLower_cases c with heq | ⟨hfirst, hlast, hsmall⟩
  · rw [heq]
  · -- A capital and its small letter are no blanks.
    rw [isBlank_eq_false (c := c) (by omega) (by omega)]
    exact isBlank_eq_false (by omega) (by omega)

theorem trimChars_eq_self_iff_map {cs : List Char} :
    trimChars cs = cs ↔ (∀ blank ∈ (cs.map isBlank).head?, blank = false) ∧
      ∀ blank ∈ (cs.map isBlank).getLast?, blank = false := by
  rw [trimChars_eq_self_iff, List.head?_map, List.getLast?_map]
  simp

/-- Names that are the same have blanks at the same places. -/
theorem trim_eq_self_of_sameName {a b : String} (h : sameName a b = true) (hb : trim b = b) :
    trim a = a := by
  have hblank : a.toList.map isBlank = b.toList.map isBlank := by
    have hkey := congrArg (List.map isBlank) (sameName_iff.1 h)
    have hlower : isBlank ∘ Char.toLower = isBlank := funext isBlank_toLower
    rwa [nameKey, nameKey, List.map_map, List.map_map, hlower] at hkey
  have htrim := trimChars_eq_self_iff_map.1 (trimChars_toList hb)
  rw [← hblank, ← trimChars_eq_self_iff_map] at htrim
  rw [trim, htrim, String.ofList_toList]

end Text

/-! ## Enum members -/

namespace EnumType

theorem find?_eq_some_iff {type : EnumType} {name member : String} :
    type.find? name = some member ↔ Text.sameName member name = true ∧
      ∃ before after, type.members = before ++ member :: after ∧
        ∀ other ∈ before, Text.sameName other name = false := by
  rw [find?, List.find?_eq_some_iff_append]
  simp

/-- The first member with a name is the first one with its own name. -/
theorem find?_member {type : EnumType} {text member : String}
    (h : type.find? (Text.trim text) = some member) :
    type.find? (Text.trim member) = some member := by
  obtain ⟨hsame, before, after, hmembers, hbefore⟩ := find?_eq_some_iff.1 h
  rw [Text.trim_eq_self_of_sameName hsame (Text.trim_trim text)]
  refine find?_eq_some_iff.2 ⟨Text.sameName_iff.2 rfl, before, after, hmembers, ?_⟩
  intro other hother
  rw [← hbefore other hother, Text.sameName, Text.sameName, Text.sameName_iff.1 hsame]

end EnumType

/-! ## Values of a type -/

namespace Coerced

/-- The literal that gives a value back. Dates and times have none. -/
def literal? : Coerced → Option Literal
  | null => some .null
  | bool value => some (.bool value)
  | int value => some (.int value)
  | float value => some (.float value)
  | str raw _ => some (.str raw)
  | enum member => some (.enum member)
  | dateTime _ | localDateTime _ | date _ => none

/-- The values of a type that a literal with a text can become. Records, lists and optional types
have none of their own. -/
inductive Represents {ρ : Type} (text : String) : FieldType ρ → Coerced → Prop
  | bool (value : Bool) : Represents text .bool (.bool value)
  | int {kind : IntKind} {value : Int128} : kind.low ≤ value.val → value.val ≤ kind.high →
      Represents text (.int kind) (.int value)
  | float {kind : FloatKind} {value : Binary64} : (kind = .single → value.IsSingle) →
      Represents text (.float kind) (.float value)
  | string : Represents text .string (.str text (Text.foldCase text))
  /-- The first member with the name that is left of the text without blanks at its ends. -/
  | enum {type : EnumType} {member : String} {before after : List String} :
      type.members = before ++ member :: after →
      Text.sameName member (Text.trim text) = true →
      (∀ other ∈ before, Text.sameName other (Text.trim text) = false) →
      Represents text (.enum type) (.enum member)
  | dateTime (moment : Moment) : Represents text .dateTime (.dateTime moment)
  | localDateTime (moment : Moment) : Represents text .localDateTime (.localDateTime moment)
  | date (date : Date) : Represents text .date (.date date)

variable {ρ : Type} {text : String} {type : FieldType ρ} {coerced : Coerced}

theorem Represents.ne_null (h : coerced.Represents text type) : coerced ≠ .null := by
  cases h <;> nofun

theorem Represents.isComposite_eq_false (h : coerced.Represents text type.unwrap) :
    type.isComposite = false := by
  unfold FieldType.isComposite
  generalize type.unwrap = unwrapped at h ⊢
  cases h <;> rfl

theorem isNull_of_literal? (h : coerced ≠ .null) {again : Literal}
    (hagain : again ∈ coerced.literal?) : again.isNull = false := by
  cases coerced with
  | null => exact absurd rfl h
  | bool | int | float | str | enum =>
    cases hagain
    rfl
  | dateTime | localDateTime | date => cases hagain

/-- A value of a type, given back as a literal, is converted to itself. -/
theorem Represents.coerceTo?_of_literal? (h : coerced.Represents text type) {again : Literal}
    (hagain : again ∈ coerced.literal?) : again.coerceTo? type = some coerced := by
  cases h with
  | bool value =>
    cases hagain
    rfl
  | @int kind value hlow hhigh =>
    cases hagain
    have hkind : (Literal.int value).toInt? kind = some value :=
      Literal.inKind_eq_some_iff.2 ⟨⟨hlow, hhigh⟩, rfl⟩
    rw [Literal.coerceTo?, hkind]
    rfl
  | @float kind value hsingle =>
    cases hagain
    have hprecision : (Literal.float value).toFloat? kind = some value := by
      cases kind with
      | single => exact Binary64.toSingle?_of_isSingle (hsingle rfl)
      | double => rfl
    rw [Literal.coerceTo?, hprecision]
    rfl
  | string =>
    cases hagain
    rfl
  | @enum type member before after hmembers hsame hbefore =>
    cases hagain
    have hfind := EnumType.find?_eq_some_iff.2 ⟨hsame, before, after, hmembers, hbefore⟩
    show (type.find? (Text.trim member)).map Coerced.enum = some (.enum member)
    rw [EnumType.find?_member hfind]
    rfl
  | dateTime | localDateTime | date => cases hagain

end Coerced

namespace Literal

variable {ρ : Type} {catalog : Catalog ρ} {literal : Literal} {type : FieldType ρ}

theorem isSingle_of_toFloat? {x : Binary64} (h : literal.toFloat? .single = some x) :
    x.IsSingle := by
  cases literal with
  | null | bool | enum => cases h
  | int value =>
    have h : (Binary64.ofInt value.val).toSingle? = some x := h
    exact Binary64.isSingle_of_toSingle? h
  | float value =>
    have h : value.toSingle? = some x := h
    exact Binary64.isSingle_of_toSingle? h
  | str text =>
    obtain ⟨y, -, hy⟩ := Option.bind_eq_some_iff.1 h
    exact Binary64.isSingle_of_toSingle? hy

/-- A literal becomes a value of the type. -/
theorem represents_of_coerceTo? {coerced : Coerced} (h : literal.coerceTo? type = some coerced) :
    coerced.Represents literal.text type := by
  cases type with
  | bool =>
    obtain ⟨value, -, rfl⟩ := Option.map_eq_some_iff.1 h
    exact .bool value
  | int kind =>
    obtain ⟨value, hvalue, rfl⟩ := Option.map_eq_some_iff.1 h
    obtain ⟨⟨hlow, hhigh⟩, -⟩ := toInt?_eq_some_iff.1 hvalue
    exact .int hlow hhigh
  | float kind =>
    obtain ⟨value, hvalue, rfl⟩ := Option.map_eq_some_iff.1 h
    exact .float fun hsingle => isSingle_of_toFloat? (hsingle ▸ hvalue)
  | string =>
    cases h
    exact .string
  | dateTime =>
    obtain ⟨moment, -, rfl⟩ := Option.map_eq_some_iff.1 h
    exact .dateTime moment
  | localDateTime =>
    obtain ⟨moment, -, rfl⟩ := Option.map_eq_some_iff.1 h
    exact .localDateTime moment
  | date =>
    obtain ⟨date, -, rfl⟩ := Option.map_eq_some_iff.1 h
    exact .date date
  | enum type =>
    obtain ⟨member, hmember, rfl⟩ := Option.map_eq_some_iff.1 h
    obtain ⟨hsame, before, after, hmembers, hbefore⟩ := EnumType.find?_eq_some_iff.1 hmember
    exact .enum hmembers hsame hbefore
  | optional | list | record => cases h

/-- **Literals become values of the type**, and only null becomes null. Optional wrappers make no
difference to the others, and converting the value once more changes nothing. -/
theorem coerce_value (catalog : Catalog ρ) (literal : Literal) (type : FieldType ρ) :
    (literal ≠ .null → literal.coerce catalog type = literal.coerce catalog type.unwrap) ∧
    ∀ coerced, literal.coerce catalog type = .ok coerced →
      (coerced = .null ↔ literal = .null) ∧
      (coerced = .null → type.isOptional = true) ∧
      (literal ≠ .null →
        type.isComposite = false ∧ coerced.Represents literal.text type.unwrap) ∧
      ∀ again ∈ coerced.literal?, again.coerce catalog type = .ok coerced := by
  by_cases hnull : literal = .null
  · subst hnull
    refine ⟨fun hne => absurd rfl hne, fun coerced h => ?_⟩
    have hoptional : type.isOptional = true ∧ coerced = .null := by
      rw [coerce_null] at h
      split at h
      · next hoptional =>
        cases h
        exact ⟨hoptional, rfl⟩
      · cases h
    obtain ⟨hoptional, rfl⟩ := hoptional
    refine ⟨iff_of_true rfl rfl, fun _ => hoptional, fun hne => absurd rfl hne, ?_⟩
    intro again hagain
    cases hagain
    exact h
  · have hisNull := isNull_of_ne hnull
    refine ⟨fun _ => ?_, fun coerced h => ?_⟩
    · rw [coerce, coerce, FieldType.unwrap_unwrap, hisNull]
      rfl
    · have hvalue := represents_of_coerceTo? ((coerce_eq_ok_iff hisNull).1 h)
      refine ⟨iff_of_false hvalue.ne_null hnull, fun hc => absurd hc hvalue.ne_null,
        fun _ => ⟨hvalue.isComposite_eq_false, hvalue⟩, fun again hagain => ?_⟩
      rw [coerce_eq_ok_iff (Coerced.isNull_of_literal? hvalue.ne_null hagain)]
      exact hvalue.coerceTo?_of_literal? hagain

theorem coerce_value_switch :
    (str " ON\t").coerce Sample.catalog (.optional (.enum ⟨"Switch", ["off", "on", "On"]⟩)) =
      .ok (.enum "on") ∧
    (enum "on").coerce Sample.catalog (.optional (.enum ⟨"Switch", ["off", "on", "On"]⟩)) =
      .ok (.enum "on") := by
  have h : (str " ON\t").coerce Sample.catalog
      (.optional (.enum ⟨"Switch", ["off", "on", "On"]⟩)) = .ok (.enum "on") := by decide
  exact ⟨h, ((coerce_value Sample.catalog _ _).2 _ h).2.2.2 _ rfl⟩

end Literal

end RecordFilter
