import RecordFilter.Proofs.FirstError
import RecordFilter.Resolution

/-!
# Paths followed step by step

A path is followed through one type at a time. A collection passes it on to its elements and opens
a layer; any other type ends it if there are no segments left, and otherwise the next segment names
a field, which is followed next. These steps are a way to define and to prove by recursion
(`follow_induction`): segments get fewer, and where they do not the type gets smaller.

`follow_append`: following a path further is following the rest of it from its leaf.
-/

namespace RecordFilter

variable {ρ : Type}

namespace FieldType

theorem sizeOf_unwrap_le (t : FieldType ρ) : sizeOf t.unwrap ≤ sizeOf t := by
  induction t with
  | optional inner ih =>
    rw [unwrap, optional.sizeOf_spec]
    omega
  | _ => exact Nat.le_refl _

theorem sizeOf_element?_lt {t element : FieldType ρ} (h : t.element? = some element) :
    sizeOf element < sizeOf t := by
  refine Nat.lt_of_lt_of_le ?_ t.sizeOf_unwrap_le
  unfold element? at h
  generalize t.unwrap = u at h
  cases u with
  | list e =>
    cases h
    rw [list.sizeOf_spec]
    omega
  | _ => cases h

theorem elements_of_element? {t element : FieldType ρ} (h : t.element? = some element) :
    t.elements = element :: element.elements := by
  induction t with
  | list e => cases h; rfl
  | optional inner ih => exact ih h
  | _ => cases h

theorem innermost_of_element? {t element : FieldType ρ} (h : t.element? = some element) :
    t.innermost = element.innermost := by
  induction t with
  | list e => cases h; rfl
  | optional inner ih =>
    rw [innermost, elements_of_element? (show inner.element? = some element from h)]
    exact ih h
  | _ => cases h

theorem elements_of_not_element? {t : FieldType ρ} (h : t.element? = none) : t.elements = [] := by
  induction t with
  | list e => cases h
  | optional inner ih => exact ih h
  | _ => rfl

theorem innermost_of_not_element? {t : FieldType ρ} (h : t.element? = none) :
    t.innermost = t := by
  induction t with
  | list e => cases h
  | optional inner ih =>
    rw [innermost, elements_of_not_element? (show inner.element? = none from h)]
  | _ => rfl

end FieldType

namespace Resolved

/-- A path that goes on as another one does where it has its leaf. -/
def andThen : Resolved ρ → Resolved ρ → Resolved ρ
  | leaf chain _, next => chain.foldr behind next
  | within chain element inner, next => within chain element (inner.andThen next)

theorem andThen_behind (r next : Resolved ρ) (name : String) :
    (r.behind name).andThen next = (r.andThen next).behind name := by
  cases r <;> rfl

@[simp] theorem depth_behind (name : String) (r : Resolved ρ) :
    (r.behind name).depth = r.depth := by
  cases r <;> rfl

@[simp] theorem leafType_behind (name : String) (r : Resolved ρ) :
    (r.behind name).leafType = r.leafType := by
  cases r <;> rfl

theorem depth_andThen (r next : Resolved ρ) : (r.andThen next).depth = r.depth + next.depth := by
  induction r with
  | leaf chain type =>
    show (chain.foldr behind next).depth = 0 + next.depth
    rw [Nat.zero_add]
    induction chain with
    | nil => rfl
    | cons name chain ih => rw [List.foldr_cons, depth_behind, ih]
  | within chain element inner ih =>
    show (inner.andThen next).depth + 1 = inner.depth + 1 + next.depth
    omega

end Resolved

/-- The field that a segment names on a record type, nullable or not. -/
def Catalog.next? (catalog : Catalog ρ) (type : FieldType ρ) (segment : String) :
    Option (Field ρ) :=
  type.record?.bind fun reference => (catalog reference).find? segment

/-- What a field is said to be missing on: the record type of a record, nullable or not, and any
other type under its own name, optional wrappers included. -/
def FieldType.owner (catalog : Catalog ρ) (type : FieldType ρ) : String :=
  match type.record? with
  | some reference => (catalog reference).name
  | none => type.name catalog

namespace Catalog

variable {catalog : Catalog ρ}

/-! ## Steps -/

/-- A collection passes the path on to its elements. -/
theorem follow_of_element? {type element : FieldType ρ} (segments : List String)
    (h : type.element? = some element) :
    catalog.follow segments type =
      (catalog.follow segments element).map (.within [] element) := by
  have he := FieldType.elements_of_element? h
  have hi := FieldType.innermost_of_element? h
  cases segments with
  | nil => rw [follow, follow, he, hi]; rfl
  | cons segment segments =>
    rw [follow, follow, he, hi]
    cases element.innermost.record? with
    | none => rfl
    | some reference =>
      dsimp only
      cases (catalog reference).find? segment with
      | none => rfl
      | some field =>
        dsimp only
        cases catalog.follow segments field.type <;> rfl

theorem follow_nil {type : FieldType ρ} (h : type.element? = none) :
    catalog.follow [] type = .ok (.leaf [] type) := by
  rw [follow, FieldType.elements_of_not_element? h, FieldType.innermost_of_not_element? h]
  rfl

/-- A segment that names a field goes on from there. -/
theorem follow_cons {type : FieldType ρ} {segment : String} {field : Field ρ}
    (segments : List String) (h : type.element? = none)
    (hf : catalog.next? type segment = some field) :
    catalog.follow (segment :: segments) type =
      (catalog.follow segments field.type).map (Resolved.behind field.name) := by
  obtain ⟨reference, hr, hf⟩ := Option.bind_eq_some_iff.1 hf
  rw [follow, FieldType.elements_of_not_element? h, FieldType.innermost_of_not_element? h]
  simp only [hr, hf]
  cases catalog.follow segments field.type <;> rfl

/-- A segment that names no field is the end, whatever comes after it. -/
theorem follow_cons_of_none {type : FieldType ρ} {segment : String} (segments : List String)
    (h : type.element? = none) (hf : catalog.next? type segment = none) :
    catalog.follow (segment :: segments) type =
      .error (.unknownField segment (type.owner catalog)) := by
  rw [follow, FieldType.innermost_of_not_element? h, FieldType.owner]
  cases hr : type.record? with
  | none => rfl
  | some reference =>
    rw [next?, hr, Option.bind_some] at hf
    simp only [hf]

/-- A path that can be followed goes on through the field that its first segment names. -/
theorem exists_next?_of_follow {type : FieldType ρ} {segment : String} {segments : List String}
    {r : Resolved ρ} (h : type.element? = none)
    (hr : catalog.follow (segment :: segments) type = .ok r) :
    ∃ field inner, catalog.next? type segment = some field ∧
      catalog.follow segments field.type = .ok inner ∧ inner.behind field.name = r := by
  cases hf : catalog.next? type segment with
  | none =>
    rw [follow_cons_of_none segments h hf] at hr
    cases hr
  | some field =>
    rw [follow_cons _ h hf] at hr
    obtain ⟨inner, hinner, hb⟩ := map_eq_ok_iff.1 hr
    exact ⟨field, inner, rfl, hinner, hb⟩

/-- Induction along a path: collections, leaves, segments. -/
theorem follow_induction {motive : List String → FieldType ρ → Prop}
    (element : ∀ segments type element, type.element? = some element →
      motive segments element → motive segments type)
    (leaf : ∀ type, type.element? = none → motive [] type)
    (segment : ∀ segment segments type, type.element? = none →
      (∀ type, motive segments type) → motive (segment :: segments) type)
    (segments : List String) (type : FieldType ρ) : motive segments type := by
  -- Inside one segment the type gets smaller; the next segment starts with any type.
  have inType : ∀ segments, (∀ type : FieldType ρ, type.element? = none → motive segments type) →
      ∀ n type, sizeOf type = n → motive segments type := by
    intro segments hbase n
    induction n using Nat.strongRecOn with
    | ind n ih =>
      intro type hn
      cases he : type.element? with
      | none => exact hbase type he
      | some e =>
        exact element segments type e he
          (ih _ (hn ▸ FieldType.sizeOf_element?_lt he) e rfl)
  induction segments generalizing type with
  | nil => exact inType [] leaf _ type rfl
  | cons s segments ih =>
    exact inType (s :: segments) (fun type h => segment s segments type h ih) _ type rfl

/-- A path that resolves can be followed. -/
theorem follow_of_resolve {maxDepth : Nat} {root : FieldType ρ} {path : Path} {r : Resolved ρ}
    (h : catalog.resolve maxDepth root path = .ok r) :
    catalog.follow path.segments root = .ok r := by
  unfold resolve at h
  split at h
  · cases h
  · split at h
    · cases h
    · exact h

/-! ## Paths in two parts -/

/-- **Paths are followed on.** A path is followed as far as its first part goes, and then from the
leaf of that. -/
theorem follow_append {before : List String} {type : FieldType ρ} {r : Resolved ρ}
    (h : catalog.follow before type = .ok r) (after : List String) :
    catalog.follow (before ++ after) type =
      (catalog.follow after r.leafType).map r.andThen := by
  induction before, type using follow_induction generalizing r with
  | element segments type element he ih =>
    rw [follow_of_element? _ he] at h
    obtain ⟨inner, hinner, rfl⟩ := map_eq_ok_iff.1 h
    rw [follow_of_element? _ he, ih hinner, Resolved.leafType]
    cases catalog.follow after inner.leafType <;> rfl
  | leaf type he =>
    rw [follow_nil he] at h
    cases h
    show catalog.follow after type = (catalog.follow after type).map (Resolved.leaf [] type).andThen
    cases catalog.follow after type <;> rfl
  | segment segment segments type he ih =>
    obtain ⟨field, inner, hf, hinner, rfl⟩ := exists_next?_of_follow he h
    rw [List.cons_append, follow_cons _ he hf, ih field.type hinner, Resolved.leafType_behind]
    cases catalog.follow after inner.leafType with
    | error e => rfl
    | ok next => exact congrArg _ (inner.andThen_behind next field.name).symm

end Catalog

end RecordFilter
