import RecordFilter.Comparison
import RecordFilter.Proofs.Reach

/-!
# Values that conform to types

A value conforms to a type when it is of the type's family, records field by field and lists
element by element, and null conforms to nullable types only. A path that is followed from a type
leads a conforming value to conforming values, or to null from the first nullable type on that has
nothing there.

1. `searched_of_fits`: where the path looks for elements, it finds a list or null.
2. `leaves_of_fits`: at its leaf it finds a value of the leaf's family, or null if one of the types
   that it walked through since the last collection is nullable.
3. `family?_of_coerce`: a literal is converted to the family of the type, so that
   `compareField_eq_none` leaves no reason for being incomparable but null and not-a-number.
-/

namespace RecordFilter

variable {ρ : Type} {catalog : Catalog ρ}

/-! ## Families -/

/-- The kinds of values. Integers of all widths are one kind and so are floats. -/
inductive Family where
  | bool
  | int
  | float
  | text
  | enum
  | dateTime
  | localDateTime
  | date
  | record
  | list
deriving DecidableEq

/-- The kind of the values of a type, null apart. -/
def FieldType.family : FieldType ρ → Family
  | bool => .bool
  | int _ => .int
  | float _ => .float
  | string => .text
  | dateTime => .dateTime
  | localDateTime => .localDateTime
  | date => .date
  | enum _ => .enum
  | optional inner => inner.family
  | list _ => .list
  | record _ => .record

/-- The kind of a value. Null is of none. -/
def Value.family? : Value → Option Family
  | null => none
  | bool _ => some .bool
  | int _ => some .int
  | float _ => some .float
  | str _ => some .text
  | enum _ => some .enum
  | dateTime _ => some .dateTime
  | localDateTime _ => some .localDateTime
  | date _ => some .date
  | record _ => some .record
  | list _ => some .list

/-- The kind of the values that a converted literal is compared with. Null has none. -/
def Coerced.family? : Coerced → Option Family
  | null => none
  | bool _ => some .bool
  | int _ => some .int
  | float _ => some .float
  | str _ _ => some .text
  | enum _ => some .enum
  | dateTime _ => some .dateTime
  | localDateTime _ => some .localDateTime
  | date _ => some .date

@[simp] theorem FieldType.family_unwrap (t : FieldType ρ) : t.unwrap.family = t.family := by
  induction t with
  | optional inner ih => exact ih
  | _ => rfl

/-- A literal is converted to the family of the type, if it is not null. -/
theorem Literal.family?_of_coerceTo? {l : Literal} {type : FieldType ρ} {coerced : Coerced}
    (h : l.coerceTo? type = some coerced) : coerced.family? = some type.family := by
  cases type with
  | string => cases h; rfl
  | optional inner => cases h
  | list element => cases h
  | record reference => cases h
  | _ =>
    obtain ⟨x, -, rfl⟩ := Option.map_eq_some_iff.1 h
    rfl

theorem Literal.family?_of_coerce {l : Literal} {type : FieldType ρ} {coerced : Coerced}
    (h : l.coerce catalog type = .ok coerced) :
    coerced = .null ∨ coerced.family? = some type.family := by
  unfold coerce at h
  split at h
  · split at h
    · cases h
      exact .inl rfl
    · cases h
  · split at h
    · next hc =>
      cases h
      rw [← type.family_unwrap]
      exact .inr (family?_of_coerceTo? hc)
    · cases h

/-! ## Comparisons within a family -/

theorem Binary64.place?_eq_none {x : Binary64} (h : x.place? = none) : x = nan := by
  cases x with
  | nan => rfl
  | infinite => cases h
  | finite => cases h

theorem Binary64.compare?_eq_none {a b : Binary64} (h : a.compare? b = none) :
    a = nan ∨ b = nan := by
  unfold compare? at h
  split at h
  · cases h
  · next hno =>
    cases ha : a.place? with
    | none => exact .inl (place?_eq_none ha)
    | some x =>
      cases hb : b.place? with
      | none => exact .inr (place?_eq_none hb)
      | some y => exact absurd hb (hno x y ha)

/-- A value and a literal of one family are incomparable only if one is not-a-number. -/
theorem compareField_eq_none {v : Value} {coerced : Coerced} {family : Family}
    (hv : v.family? = some family) (hc : coerced.family? = some family)
    (h : compareField v coerced = none) :
    v = .float .nan ∨ coerced = .float .nan := by
  cases coerced with
  | null => cases hc
  | float b =>
    cases hc
    cases v with
    | float a => exact (Binary64.compare?_eq_none h).imp (congrArg _) (congrArg _)
    | _ => cases hv
  | _ =>
    cases hc
    cases v <;> first | exact absurd h (Option.some_ne_none _) | cases hv

/-! ## Conforming values -/

/-- A value is one of a type. Neither the bounds of integers nor the members of enums are asked
for, so what is shown of conforming values does not rest on them. -/
inductive Conforms (catalog : Catalog ρ) : FieldType ρ → Value → Prop
  | bool (value : Bool) : Conforms catalog .bool (.bool value)
  | int (kind : IntKind) (value : Int128) : Conforms catalog (.int kind) (.int value)
  | float (kind : FloatKind) (value : Binary64) : Conforms catalog (.float kind) (.float value)
  | string (text : String) : Conforms catalog .string (.str text)
  | dateTime (moment : Moment) : Conforms catalog .dateTime (.dateTime moment)
  | localDateTime (moment : Moment) : Conforms catalog .localDateTime (.localDateTime moment)
  | date (day : Date) : Conforms catalog .date (.date day)
  | enum (type : EnumType) (member : String) : Conforms catalog (.enum type) (.enum member)
  | null (inner : FieldType ρ) : Conforms catalog (.optional inner) .null
  | some {inner : FieldType ρ} {v : Value} (h : Conforms catalog inner v) :
    Conforms catalog (.optional inner) v
  | list {element : FieldType ρ} {items : List Value}
      (h : ∀ item ∈ items, Conforms catalog element item) :
    Conforms catalog (.list element) (.list items)
  | record {reference : ρ} {fields : List (String × Value)}
      (h : ∀ f ∈ (catalog reference).fields,
        Conforms catalog f.type ((Value.record fields).get f.name)) :
    Conforms catalog (.record reference) (.record fields)

namespace Conforms

variable {type element : FieldType ρ} {v : Value}

/-- A conforming value is of the type's family, or null if the type is nullable. -/
theorem null_or_family (h : Conforms catalog type v) :
    (v = .null ∧ type.isOptional = true) ∨ v.family? = Option.some type.family := by
  induction h with
  | null inner => exact .inl ⟨rfl, rfl⟩
  | some _ ih => exact ih.imp_left fun hv => ⟨hv.1, rfl⟩
  | _ => exact .inr rfl

theorem items (h : Conforms catalog type v) (he : type.element? = Option.some element) :
    v = .null ∨ ∃ items, v = .list items ∧ ∀ item ∈ items, Conforms catalog element item := by
  induction h with
  | null inner => exact .inl rfl
  | some _ ih => exact ih he
  | list hitems =>
    cases he
    exact .inr ⟨_, rfl, hitems⟩
  | _ => cases he

theorem get (h : Conforms catalog type v) {reference : ρ} {f : Field ρ}
    (hr : type.record? = Option.some reference) (hf : f ∈ (catalog reference).fields) :
    (v = .null ∧ type.isOptional = true) ∨ Conforms catalog f.type (v.get f.name) := by
  induction h with
  | null inner => exact .inl ⟨rfl, rfl⟩
  | some _ ih => exact (ih hr).imp_left fun hv => ⟨hv.1, rfl⟩
  | record hfields =>
    cases hr
    exact .inr (hfields f hf)
  | _ => cases hr

end Conforms

/-! ## Along a path -/

namespace Catalog

/-- The types that a path walks through from the last collection on that it meets, its leaf
included; or from its start if it meets none, where some types may have been walked before. -/
def walked (catalog : Catalog ρ) (before : List (FieldType ρ)) (type : FieldType ρ)
    (segments : List String) : List (FieldType ρ) :=
  match _h : type.element? with
  | some element => catalog.walked [] element segments
  | none =>
    match segments with
    | [] => before ++ [type]
    | segment :: segments =>
      match catalog.next? type segment with
      | some field => catalog.walked (before ++ [type]) field.type segments
      | none => before ++ [type]
termination_by (segments.length, sizeOf type)
decreasing_by
  · exact .right _ (FieldType.sizeOf_element?_lt _h)
  · exact .left _ _ (Nat.lt_succ_self _)

section Steps

variable {type element : FieldType ρ} {segment : String} {field : Field ρ}

theorem walked_of_element? (before : List (FieldType ρ)) (segments : List String)
    (h : type.element? = some element) :
    catalog.walked before type segments = catalog.walked [] element segments := by
  rw [walked.eq_def]
  split
  · next e he => cases h.symm.trans he; rfl
  · next he => cases h.symm.trans he

theorem walked_nil (before : List (FieldType ρ)) (h : type.element? = none) :
    catalog.walked before type [] = before ++ [type] := by
  rw [walked.eq_def]
  split
  · next e he => cases h.symm.trans he
  · rfl

theorem walked_cons (before : List (FieldType ρ)) (segments : List String)
    (h : type.element? = none) (hf : catalog.next? type segment = some field) :
    catalog.walked before type (segment :: segments) =
      catalog.walked (before ++ [type]) field.type segments := by
  rw [walked.eq_def]
  split
  · next e he => cases h.symm.trans he
  · simp only [hf]

end Steps

theorem leafType_mem_walked {segments : List String} {type : FieldType ρ} {r : Resolved ρ}
    (h : catalog.follow segments type = .ok r) (before : List (FieldType ρ)) :
    r.leafType ∈ catalog.walked before type segments := by
  induction segments, type using follow_induction generalizing r before with
  | element segments type element he ih =>
    rw [follow_of_element? _ he] at h
    obtain ⟨inner, hinner, rfl⟩ := map_eq_ok_iff.1 h
    rw [walked_of_element? _ _ he]
    exact ih hinner []
  | leaf type he =>
    rw [follow_nil he] at h
    cases h
    rw [walked_nil _ he]
    exact List.mem_append_cons_self
  | segment segment segments type he ih =>
    obtain ⟨field, inner, hf, hinner, rfl⟩ := exists_next?_of_follow he h
    rw [walked_cons _ _ he hf, Resolved.leafType_behind]
    exact ih field.type hinner _

/-- A value conforms to a type, or is null where a type walked through before is nullable. -/
def Fits (catalog : Catalog ρ) (before : List (FieldType ρ)) (type : FieldType ρ) (v : Value) :
    Prop :=
  Conforms catalog type v ∨ v = .null ∧ ∃ t ∈ before, t.isOptional = true

/-- Through a field, a null goes on for the type that it stood in for. -/
theorem Fits.get {before : List (FieldType ρ)} {type : FieldType ρ} {v : Value}
    {segment : String} {field : Field ρ} (h : catalog.Fits before type v)
    (hf : catalog.next? type segment = some field) :
    catalog.Fits (before ++ [type]) field.type (v.get field.name) := by
  obtain ⟨reference, hr, hfind⟩ := Option.bind_eq_some_iff.1 hf
  have hmem := RecordType.mem_of_find? hfind
  rcases h with hv | ⟨rfl, t, ht, ho⟩
  · rcases hv.get hr hmem with ⟨rfl, ho⟩ | hfield
    · exact .inr ⟨rfl, type, List.mem_append_cons_self, ho⟩
    · exact .inl hfield
  · exact .inr ⟨rfl, t, List.mem_append_left _ ht, ho⟩

theorem Fits.items {before : List (FieldType ρ)} {type element : FieldType ρ} {v : Value}
    (h : catalog.Fits before type v) (he : type.element? = some element) :
    v = .null ∨ ∃ items, v = .list items ∧ ∀ item ∈ items, catalog.Fits [] element item := by
  rcases h with hv | ⟨rfl, -⟩
  · refine (hv.items he).imp_right ?_
    rintro ⟨items, rfl, hitems⟩
    exact ⟨items, rfl, fun item hitem => .inl (hitems item hitem)⟩
  · exact .inl rfl

end Catalog

/-! ## What a path meets -/

/-- The values in which a resolved path looks for elements. -/
def Resolved.searched : Resolved ρ → Value → List Value
  | leaf _ _, _ => []
  | within chain _ inner, v =>
    v.walk chain :: ((v.walk chain).items?.getD []).flatMap inner.searched

theorem Resolved.searched_behind (r : Resolved ρ) (name : String) (v : Value) :
    (r.behind name).searched v = r.searched (v.get name) := by
  cases r <;> rfl

namespace Catalog

variable {segments : List String} {before : List (FieldType ρ)} {type : FieldType ρ}
  {r : Resolved ρ} {v : Value}

/-- A path looks for elements in lists and in null. -/
theorem searched_of_fits (h : catalog.follow segments type = .ok r)
    (hv : catalog.Fits before type v) :
    ∀ x ∈ r.searched v, x = .null ∨ ∃ items, x = .list items := by
  induction segments, type using follow_induction generalizing r before v with
  | element segments type element he ih =>
    rw [follow_of_element? _ he] at h
    obtain ⟨inner, hinner, rfl⟩ := map_eq_ok_iff.1 h
    rw [Resolved.searched, Value.walk_nil, List.forall_mem_cons]
    rcases hv.items he with rfl | ⟨items, rfl, hitems⟩
    · exact ⟨.inl rfl, fun x hx => by cases hx⟩
    · refine ⟨.inr ⟨items, rfl⟩, fun x hx => ?_⟩
      obtain ⟨item, hitem, hx⟩ := List.mem_flatMap.1 hx
      exact ih hinner (hitems item hitem) x hx
  | leaf type he =>
    rw [follow_nil he] at h
    cases h
    intro x hx
    cases hx
  | segment segment segments type he ih =>
    obtain ⟨field, inner, hf, hinner, rfl⟩ := exists_next?_of_follow he h
    rw [inner.searched_behind]
    exact ih field.type hinner (hv.get hf)

theorem fits_of_mem_leaves (h : catalog.follow segments type = .ok r)
    (hv : catalog.Fits before type v) :
    ∀ x ∈ r.leaves v, catalog.Fits (catalog.walked before type segments) r.leafType x := by
  induction segments, type using follow_induction generalizing r before v with
  | element segments type element he ih =>
    rw [follow_of_element? _ he] at h
    obtain ⟨inner, hinner, rfl⟩ := map_eq_ok_iff.1 h
    rw [walked_of_element? _ _ he, Resolved.leaves, Value.walk_nil]
    intro x hx
    rcases hv.items he with rfl | ⟨items, rfl, hitems⟩
    · cases hx
    · obtain ⟨item, hitem, hx⟩ := List.mem_flatMap.1 hx
      exact ih hinner (hitems item hitem) x hx
  | leaf type he =>
    rw [follow_nil he] at h
    cases h
    rw [walked_nil _ he, Resolved.leaves, Value.walk_nil, List.forall_mem_singleton]
    refine hv.imp_right ?_
    rintro ⟨rfl, t, ht, ho⟩
    exact ⟨rfl, t, List.mem_append_left _ ht, ho⟩
  | segment segment segments type he ih =>
    obtain ⟨field, inner, hf, hinner, rfl⟩ := exists_next?_of_follow he h
    rw [walked_cons _ _ he hf, inner.leaves_behind, Resolved.leafType_behind]
    exact ih field.type hinner (hv.get hf)

/-- At the leaf of a path there are values of the leaf's family; and null, if a type that was
walked through since the last collection is nullable. -/
theorem leaves_of_fits (h : catalog.follow segments type = .ok r)
    (hv : catalog.Fits before type v) :
    ∀ x ∈ r.leaves v,
      (x = .null ∧ ∃ t ∈ catalog.walked before type segments, t.isOptional = true) ∨
        x.family? = some r.leafType.family := by
  intro x hx
  rcases fits_of_mem_leaves h hv x hx with hconforms | hnull
  · refine hconforms.null_or_family.imp_left ?_
    rintro ⟨rfl, ho⟩
    exact ⟨rfl, r.leafType, leafType_mem_walked h before, ho⟩
  · exact .inl hnull

end Catalog

end RecordFilter
