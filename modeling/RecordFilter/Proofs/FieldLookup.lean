import RecordFilter.Schema

/-!
# Fields found as records grow

A segment finds a field by its name without regard to ASCII case, and if no field has that name, by
its name without regard to underscores either. So a field always answers to its own name, whatever
other names are like it, as long as case alone does not make two names the same. A field that
answers only to a segment without underscores gives way once a record has a field with just that
name, and to nothing else that is appended.

`find?_as_fields_grow` says so of record types.
-/

namespace RecordFilter

variable {ρ : Type}

namespace RecordType

/-- The fields of a record type have names, and these differ even without ASCII case. -/
structure NamesApart (r : RecordType ρ) : Prop where
  nonempty : ∀ f ∈ r.fields, f.name ≠ ""
  pairwise : r.fields.Pairwise fun f g => Text.sameName f.name g.name = false

instance (r : RecordType ρ) : Decidable r.NamesApart :=
  decidable_of_iff ((∀ f ∈ r.fields, f.name ≠ "") ∧
    r.fields.Pairwise fun f g : Field ρ => Text.sameName f.name g.name = false)
    ⟨fun h => ⟨h.1, h.2⟩, fun h => ⟨h.nonempty, h.pairwise⟩⟩

/-- A record type with further fields appended. -/
def extend (r : RecordType ρ) (more : List (Field ρ)) : RecordType ρ where
  name := r.name
  fields := r.fields ++ more

variable {r : RecordType ρ} {segment : String} {f : Field ρ}

/-! ## Own names -/

/-- **A field is found by its own name**, in capitals or not. -/
theorem NamesApart.find?_eq_some (hr : r.NamesApart) (hf : f ∈ r.fields)
    (h : Text.sameName f.name segment = true) : r.find? segment = some f := by
  have hsegment : segment ≠ "" := by
    rintro rfl
    exact hr.nonempty f hf (Text.nameKey_eq_nil_iff.1 (Text.sameName_iff.1 h))
  have hfirst : r.fields.find? (Text.sameName ·.name segment) = some f :=
    (Text.find?_sameName_eq_some_iff hr.pairwise).2 ⟨hf, h⟩
  exact find?_eq_some_iff.2 ⟨hsegment, .inl hfirst⟩

/-! ## Further fields -/

/-- Where a segment finds a field only without underscores, the first look goes on to the fields
appended, and the second look never gets there. -/
theorem find?_extend (h : r.find? segment = some f) (more : List (Field ρ)) :
    (r.extend more).find? segment =
      if Text.sameName f.name segment then some f
      else (more.find? (Text.sameName ·.name segment)).or (some f) := by
  obtain ⟨hsegment, hfound⟩ := find?_eq_some_iff.1 h
  unfold find? extend
  rw [if_neg (by simpa using hsegment), List.find?_append, List.find?_append]
  rcases hfound with hfirst | ⟨hfirst, hsecond⟩
  · have hsame := List.find?_some hfirst
    simp [hfirst, hsame]
  · have hother : Text.sameName f.name segment = false := by
      simpa using List.find?_eq_none.1 hfirst f (mem_of_find? h)
    cases hnew : more.find? (Text.sameName ·.name segment) <;> simp [hfirst, hsecond, hother]

/-- **A field that is found stays found**, unless it was found only without underscores and a new
field has the segment for its name. -/
theorem find?_extend_ne_iff (h : r.find? segment = some f) (more : List (Field ρ)) :
    (r.extend more).find? segment ≠ some f ↔
      Text.sameName f.name segment = false ∧
        ∃ g ∈ more, Text.sameName g.name segment = true := by
  rw [find?_extend h]
  cases hold : Text.sameName f.name segment with
  | true => simp
  | false =>
    cases hnew : more.find? (Text.sameName ·.name segment) with
    | none => simpa using List.find?_eq_none.1 hnew
    | some g =>
      have hg := List.find?_some hnew
      have hne : g ≠ f := by
        rintro rfl
        rw [hold] at hg
        cases hg
      simpa [hne] using ⟨g, List.mem_of_find?_eq_some hnew, hg⟩

/-! ## Underscores -/

/-- **Underscores find no other field** than one that consists of them. -/
theorem find?_ne_some_of_underscores (hf : ∃ c ∈ f.name.toList, c ≠ '_')
    (hs : ∀ c ∈ segment.toList, c = '_') : r.find? segment ≠ some f := by
  intro h
  have hkey := Text.similarName_iff.1 (similarName_of_find? h)
  rw [Text.looseKey_eq_nil_iff.2 hs, Text.looseKey_eq_nil_iff] at hkey
  obtain ⟨c, hc, hne⟩ := hf
  exact hne (hkey c hc)

/-- **Fields are found as records grow.** With names that differ even without ASCII case, each field
is found by every segment that is its own name but for ASCII case. A segment that finds a field
finds another one or none after fields were appended just if the field's name is the segment only
without underscores, and a new field has the segment for its name but for ASCII case. A field with
another character than the underscore in its name is not found by underscores alone, nor by the
empty segment. -/
theorem find?_as_fields_grow (r : RecordType ρ) :
    (r.NamesApart → ∀ f ∈ r.fields, ∀ segment, Text.sameName f.name segment = true →
      r.find? segment = some f) ∧
    (∀ segment f, r.find? segment = some f → ∀ more,
      ((r.extend more).find? segment ≠ some f ↔
        (Text.sameName f.name segment = false ∧ Text.similarName f.name segment = true) ∧
          ∃ g ∈ more, Text.sameName g.name segment = true)) ∧
    ∀ f : Field ρ, (∃ c ∈ f.name.toList, c ≠ '_') → ∀ segment : String,
      (∀ c ∈ segment.toList, c = '_') → r.find? segment ≠ some f := by
  refine ⟨fun hr f hf segment => hr.find?_eq_some hf, fun segment f h more => ?_,
    fun f hf segment => find?_ne_some_of_underscores hf⟩
  rw [find?_extend_ne_iff h more, similarName_of_find? h, eq_self, and_true]

/-- Parcels, with names that differ only in case and underscores. -/
def parcel : RecordType Empty where
  name := "Parcel"
  fields := [⟨"zip_code", .string⟩, ⟨"Zip__Code", .string⟩, ⟨"weight", .int .uint16⟩]

/-- Both fields of a parcel that are like each other answer to their own names. The segment
`ZipCode` stands for the first one until there is a field with that name. -/
theorem find?_as_fields_grow_parcel :
    parcel.find? "ZIP__code" = some ⟨"Zip__Code", .string⟩ ∧
      parcel.find? "ZipCode" = some ⟨"zip_code", .string⟩ ∧
      (parcel.extend [⟨"zipcode", .bool⟩]).find? "ZipCode" ≠ some ⟨"zip_code", .string⟩ ∧
      parcel.find? "__" ≠ some ⟨"weight", .int .uint16⟩ := by
  obtain ⟨hown, hgrow, hscores⟩ := find?_as_fields_grow parcel
  have hfound : parcel.find? "ZipCode" = some ⟨"zip_code", .string⟩ := by decide
  refine ⟨hown (by decide) _ (by decide) _ (by decide), hfound,
    (hgrow _ _ hfound _).2 (by decide), hscores _ ⟨'w', by decide, by decide⟩ _ (by simp)⟩

end RecordType

end RecordFilter
