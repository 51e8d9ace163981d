import RecordFilter.Path

/-!
# Paths written and read back

The text of a path has its segments between dots, so it denotes the path again if no dot stands
inside of a segment: splitting undoes joining, and as the segments have no blanks at their ends,
neither has the text. Only the single blank segment is lost, for its text is that of the path
without segments. `Path.ofText_text_of_dotless` puts this together.
-/

namespace RecordFilter

/-! ## Blanks at the ends -/

namespace Text

theorem trimLeft_eq_self_iff {cs : List Char} :
    trimLeft cs = cs ↔ ∀ c ∈ cs.head?, isBlank c = false := by
  constructor
  · intro h c hc
    rcases trimLeft_eq_nil_or cs with hnil | ⟨d, rest, hcons, hd⟩
    · rw [← h, hnil] at hc
      cases hc
    · rw [← h, hcons] at hc
      cases hc
      exact hd
  · intro h
    cases cs with
    | nil => rfl
    | cons c cs => exact trimLeft_cons_of_not (h c rfl) cs

theorem trimRight_eq_self_iff {cs : List Char} :
    trimRight cs = cs ↔ ∀ c ∈ cs.getLast?, isBlank c = false := by
  rw [trimRight, List.reverse_eq_iff, trimLeft_eq_self_iff, List.head?_reverse]

/-- Trimming leaves alone what has no blank at its ends. -/
theorem trimChars_eq_self_iff {cs : List Char} :
    trimChars cs = cs ↔
      (∀ c ∈ cs.head?, isBlank c = false) ∧ ∀ c ∈ cs.getLast?, isBlank c = false := by
  rw [← trimLeft_eq_self_iff, ← trimRight_eq_self_iff]
  constructor
  · intro h
    have hright : trimRight cs = cs := by
      rw [← h, trimChars, trimRight_trimRight]
    refine ⟨?_, hright⟩
    rcases trimLeft_eq_nil_or cs with hnil | ⟨c, rest, hcons, hc⟩
    · rw [trimChars, hnil] at h
      rw [hnil, ← h]
      rfl
    · obtain ⟨tail, htail⟩ := trimRight_cons_of_not hc rest
      rw [trimChars, hcons, htail] at h
      rw [← h, trimLeft_cons_of_not hc]
  · rintro ⟨hleft, hright⟩
    rw [trimChars, hleft, hright]

theorem trimChars_toList {s : String} (h : trim s = s) : trimChars s.toList = s.toList := by
  rw [← String.ofList_inj, String.ofList_toList]
  exact h

end Text

namespace Path

/-! ## Dots between parts -/

theorem splitDots_of_not_mem {part : List Char} (h : '.' ∉ part) : splitDots part = [part] := by
  induction part with
  | nil => rfl
  | cons c part ih =>
    rw [splitDots, ih (List.not_mem_of_not_mem_cons h)]
    exact fun heq => List.ne_of_not_mem_cons h heq.symm

theorem splitDots_append {part : List Char} (h : '.' ∉ part) (rest : List Char) :
    splitDots (part ++ '.' :: rest) = part :: splitDots rest := by
  induction part with
  | nil => rfl
  | cons c part ih =>
    rw [List.cons_append, splitDots, ih (List.not_mem_of_not_mem_cons h)]
    exact fun heq => List.ne_of_not_mem_cons h heq.symm

/-- Splitting undoes joining. -/
theorem splitDots_joinDots {parts : List (List Char)} (hne : parts ≠ [])
    (h : ∀ part ∈ parts, '.' ∉ part) : splitDots (joinDots parts) = parts := by
  induction parts with
  | nil => exact absurd rfl hne
  | cons part parts ih =>
    obtain ⟨hpart, hparts⟩ := List.forall_mem_cons.1 h
    cases parts with
    | nil => exact splitDots_of_not_mem hpart
    | cons next parts =>
      rw [joinDots, splitDots_append hpart, ih (List.cons_ne_nil _ _) hparts]
      exact List.cons_ne_nil _ _

/-- Parts without blanks at their ends are joined to a text without blanks at its ends. -/
theorem trimChars_joinDots {parts : List (List Char)}
    (h : ∀ part ∈ parts, Text.trimChars part = part) :
    Text.trimChars (joinDots parts) = joinDots parts := by
  induction parts with
  | nil => rfl
  | cons part parts ih =>
    obtain ⟨hpart, hparts⟩ := List.forall_mem_cons.1 h
    cases parts with
    | nil => exact hpart
    | cons next parts =>
      obtain ⟨hhead, -⟩ := Text.trimChars_eq_self_iff.1 hpart
      obtain ⟨-, hlast⟩ := Text.trimChars_eq_self_iff.1 (ih hparts)
      rw [joinDots, Text.trimChars_eq_self_iff]
      · constructor
        · intro c hc
          cases part with
          | nil =>
            cases hc
            rfl
          | cons d part => exact hhead c hc
        · intro c hc
          rw [List.getLast?_append, List.getLast?_cons, Option.some_or, Option.mem_some_iff] at hc
          cases hend : (joinDots (next :: parts)).getLast? with
          | none =>
            rw [← hc, hend]
            rfl
          | some d =>
            rw [← hc, hend]
            exact hlast d hend
      · exact List.cons_ne_nil _ _

theorem joinDots_eq_nil_iff {parts : List (List Char)} :
    joinDots parts = [] ↔ parts = [] ∨ parts = [[]] := by
  match parts with
  | [] => simp [joinDots]
  | [part] => simp [joinDots]
  | part :: next :: parts => simp [joinDots]

theorem ofSegments_segments (p : Path) : ofSegments p.segments = p := by
  obtain ⟨segments, trimmed⟩ := p
  rw [ofSegments, mk.injEq, List.map_congr_left (g := id) trimmed, List.map_id]

/-- **Paths are read back from their text**, unless a segment has a dot or the only segment is
blank. -/
theorem ofText_text_of_dotless {p : Path} (hdots : ∀ s ∈ p.segments, '.' ∉ s.toList)
    (hblank : p.segments ≠ [""]) : ofText p.text = p := by
  have hparts : ∀ part ∈ p.segments.map String.toList, '.' ∉ part ∧ Text.trimChars part = part := by
    rw [List.forall_mem_map]
    exact fun s hs => ⟨hdots s hs, Text.trimChars_toList (p.trimmed s hs)⟩
  have htrim : Text.trimChars p.text.toList = joinDots (p.segments.map String.toList) := by
    rw [text, String.toList_ofList, trimChars_joinDots fun part hp => (hparts part hp).2]
  by_cases hnil : p.segments = []
  · rw [hnil] at htrim
    rw [ofText, htrim, ← ofSegments_segments p, hnil]
    rfl
  · have hne : joinDots (p.segments.map String.toList) ≠ [] := by
      rw [ne_eq, joinDots_eq_nil_iff, List.map_eq_nil_iff]
      rintro (h | h)
      · exact hnil h
      · obtain ⟨s, hs, hempty⟩ := List.map_eq_singleton_iff.1 h
        exact hblank (by rw [hs, String.toList_eq_nil_iff.1 hempty])
    have hsplit : splitDots (joinDots (p.segments.map String.toList)) =
        p.segments.map String.toList :=
      splitDots_joinDots (by rwa [ne_eq, List.map_eq_nil_iff]) fun part hp => (hparts part hp).1
    have hback : (p.segments.map String.toList).map String.ofList = p.segments := by
      rw [List.map_map]
      exact (List.map_congr_left fun s _ => String.ofList_toList).trans (List.map_id _)
    rw [ofText, htrim, if_neg (by rwa [List.isEmpty_iff]), hsplit, hback, ofSegments_segments]

end Path

end RecordFilter
