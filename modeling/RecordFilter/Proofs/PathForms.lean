import Mathlib.Data.List.Induction
import RecordFilter.Proofs.PathText
import RecordFilter.Proofs.WireForms

/-!
# The forms of a path

A path can be written as dotted text or as a list of segments. Its text carries it exactly when no
segment has a dot and it is not the single blank segment: no other path is denoted by any text
(`Path.Carried.ofText`), and these are read back from their own. Blanks around the whole text make
no difference that blanks around its parts do not make (`Path.ofText_of_ne_nil`), so that a list of
segments and the dotted text that joins them are the same path, also as JSON.

`Path.ofText_text_iff` puts this together.
-/

namespace RecordFilter

open Json (Document Reader)

/-! ## Blanks around parts -/

namespace Text

theorem mem_of_mem_trimLeft {c : Char} {cs : List Char} (h : c ∈ trimLeft cs) : c ∈ cs :=
  (List.dropWhile_suffix _).subset h

theorem mem_of_mem_trimChars {c : Char} {cs : List Char} (h : c ∈ trimChars cs) : c ∈ cs := by
  have hleft : c ∈ trimLeft cs :=
    List.mem_reverse.1 (mem_of_mem_trimLeft (List.mem_reverse.1 h))
  exact mem_of_mem_trimLeft hleft

theorem trimLeft_cons_of_blank {c : Char} (h : isBlank c = true) (cs : List Char) :
    trimLeft (c :: cs) = trimLeft cs :=
  List.dropWhile_cons_of_pos h

theorem trimRight_concat_of_blank {c : Char} (h : isBlank c = true) (cs : List Char) :
    trimRight (cs ++ [c]) = trimRight cs := by
  rw [trimRight, List.reverse_concat, trimLeft_cons_of_blank h, trimRight]

theorem trimChars_cons_of_blank {c : Char} (h : isBlank c = true) (cs : List Char) :
    trimChars (c :: cs) = trimChars cs := by
  rw [trimChars, trimLeft_cons_of_blank h, trimChars]

theorem trimChars_concat_of_blank {c : Char} (h : isBlank c = true) (cs : List Char) :
    trimChars (cs ++ [c]) = trimChars cs := by
  induction cs with
  | nil => rw [List.nil_append, trimChars_cons_of_blank h]
  | cons d cs ih =>
    cases hd : isBlank d with
    | true => rw [List.cons_append, trimChars_cons_of_blank hd, ih, trimChars_cons_of_blank hd]
    | false =>
      rw [trimChars, trimChars, List.cons_append, trimLeft_cons_of_not hd,
        trimLeft_cons_of_not hd, ← List.cons_append, trimRight_concat_of_blank h]

/-- Only blanks are trimmed to nothing. -/
theorem isBlank_of_trimChars_eq_nil {cs : List Char} (h : trimChars cs = []) {c : Char}
    (hc : c ∈ cs) : isBlank c = true := by
  induction cs with
  | nil => cases hc
  | cons d cs ih =>
    cases hd : isBlank d with
    | true =>
      rw [trimChars_cons_of_blank hd] at h
      rcases List.mem_cons.1 hc with rfl | hc
      · exact hd
      · exact ih h hc
    | false =>
      obtain ⟨rest, hrest⟩ := trimRight_cons_of_not hd cs
      rw [trimChars, trimLeft_cons_of_not hd, hrest] at h
      cases h

end Text

namespace Path

/-! ## Parts of a text -/

theorem exists_splitDots_cons (cs : List Char) :
    ∃ part parts, splitDots cs = part :: parts := by
  fun_cases splitDots cs with
  | case1 => exact ⟨_, _, rfl⟩
  | case2 => exact ⟨_, _, rfl⟩
  | case3 => exact ⟨_, _, rfl⟩
  | case4 => exact ⟨_, _, rfl⟩

theorem splitDots_cons_of_ne {c : Char} (h : c ≠ '.') {cs part : List Char}
    {parts : List (List Char)} (hcs : splitDots cs = part :: parts) :
    splitDots (c :: cs) = (c :: part) :: parts := by
  rw [splitDots, hcs]
  exact h

theorem joinDots_cons_cons (part next : List Char) (parts : List (List Char)) :
    joinDots (part :: next :: parts) = part ++ '.' :: joinDots (next :: parts) := by
  rw [joinDots]
  exact List.cons_ne_nil _ _

/-- Joining undoes splitting. -/
theorem joinDots_splitDots (cs : List Char) : joinDots (splitDots cs) = cs := by
  induction cs with
  | nil => rfl
  | cons c cs ih =>
    obtain ⟨part, parts, hcs⟩ := exists_splitDots_cons cs
    rw [hcs] at ih
    by_cases h : c = '.'
    · subst h
      rw [splitDots, hcs, joinDots_cons_cons, ih, List.nil_append]
    · rw [splitDots_cons_of_ne h hcs]
      cases parts with
      | nil => rw [joinDots] at ih ⊢; rw [ih]
      | cons next parts =>
        rw [joinDots_cons_cons] at ih ⊢
        rw [List.cons_append, ih]

theorem dot_not_mem_of_mem_splitDots {cs part : List Char} (h : part ∈ splitDots cs) :
    '.' ∉ part := by
  induction cs generalizing part with
  | nil =>
    rw [splitDots, List.mem_singleton] at h
    rw [h]
    exact List.not_mem_nil
  | cons c cs ih =>
    obtain ⟨first, parts, hcs⟩ := exists_splitDots_cons cs
    by_cases hc : c = '.'
    · subst hc
      rw [splitDots, List.mem_cons] at h
      rcases h with rfl | h
      · exact List.not_mem_nil
      · exact ih h
    · rw [splitDots_cons_of_ne hc hcs, List.mem_cons] at h
      rcases h with rfl | h
      · rw [List.mem_cons, not_or]
        exact ⟨fun heq => hc heq.symm, ih (hcs ▸ List.mem_cons_self)⟩
      · exact ih (hcs ▸ List.mem_cons_of_mem _ h)

/-- A character at the end that is no dot belongs to the last part. -/
theorem splitDots_concat {c : Char} (h : c ≠ '.') (cs : List Char) :
    ∃ parts last, splitDots cs = parts ++ [last] ∧
      splitDots (cs ++ [c]) = parts ++ [last ++ [c]] := by
  induction cs with
  | nil => exact ⟨[], [], rfl, splitDots_cons_of_ne h rfl⟩
  | cons d cs ih =>
    obtain ⟨parts, last, hcs, hconcat⟩ := ih
    by_cases hd : d = '.'
    · subst hd
      refine ⟨[] :: parts, last, ?_, ?_⟩
      · rw [splitDots, hcs, List.cons_append]
      · rw [List.cons_append, splitDots, hconcat, List.cons_append]
    · cases parts with
      | nil => exact ⟨[], d :: last, splitDots_cons_of_ne hd hcs, splitDots_cons_of_ne hd hconcat⟩
      | cons part parts =>
        exact ⟨(d :: part) :: parts, last, splitDots_cons_of_ne hd hcs,
          splitDots_cons_of_ne hd hconcat⟩

theorem ne_dot_of_isBlank {c : Char} (h : Text.isBlank c = true) : c ≠ '.' := by
  rintro rfl
  exact absurd h (by decide)

/-- The parts of a text are the same without the blanks around it, but for the blanks around
themselves. -/
theorem map_trimChars_splitDots_trimChars (cs : List Char) :
    (splitDots (Text.trimChars cs)).map Text.trimChars = (splitDots cs).map Text.trimChars := by
  have hleft (cs : List Char) : (splitDots (Text.trimLeft cs)).map Text.trimChars =
      (splitDots cs).map Text.trimChars := by
    induction cs with
    | nil => rfl
    | cons c cs ih =>
      cases hc : Text.isBlank c with
      | false => rw [Text.trimLeft_cons_of_not hc]
      | true =>
        obtain ⟨part, parts, hcs⟩ := exists_splitDots_cons cs
        rw [Text.trimLeft_cons_of_blank hc, ih, splitDots_cons_of_ne (ne_dot_of_isBlank hc) hcs,
          hcs, List.map_cons, List.map_cons, Text.trimChars_cons_of_blank hc]
  have hright (cs : List Char) : (splitDots (Text.trimRight cs)).map Text.trimChars =
      (splitDots cs).map Text.trimChars := by
    induction cs using List.reverseRecOn with
    | nil => rfl
    | append_singleton cs c ih =>
      cases hc : Text.isBlank c with
      | false =>
        rw [Text.trimRight_eq_self_iff.2]
        intro d hd
        rw [List.getLast?_concat, Option.mem_some_iff] at hd
        rw [← hd, hc]
      | true =>
        obtain ⟨parts, last, hcs, hconcat⟩ := splitDots_concat (ne_dot_of_isBlank hc) cs
        rw [Text.trimRight_concat_of_blank hc, ih, hcs, hconcat, List.map_append, List.map_append,
          List.map_singleton, List.map_singleton, Text.trimChars_concat_of_blank hc]
  rw [Text.trimChars, hright, hleft]

/-! ## What a text denotes -/

theorem segments_ofSegments (segments : List String) :
    (ofSegments segments).segments = segments.map Text.trim := rfl

theorem ofSegments_congr {segments others : List String}
    (h : segments.map Text.trim = others.map Text.trim) :
    ofSegments segments = ofSegments others := by
  rw [ofSegments, ofSegments, mk.injEq, h]

/-- A text that is not blank denotes the path of its parts. -/
theorem ofText_of_ne_nil {text : String} (h : Text.trimChars text.toList ≠ []) :
    ofText text = ofSegments ((splitDots text.toList).map String.ofList) := by
  have htrim : Text.trim ∘ String.ofList = String.ofList ∘ Text.trimChars := by
    funext part
    rw [Function.comp_apply, Function.comp_apply, Text.trim, String.toList_ofList]
  rw [ofText, if_neg (by rwa [List.isEmpty_iff])]
  refine ofSegments_congr ?_
  rw [List.map_map, List.map_map, htrim, ← List.map_map, ← List.map_map,
    map_trimChars_splitDots_trimChars]

/-- The paths that a text can carry. -/
def Carried (p : Path) : Prop := (∀ s ∈ p.segments, '.' ∉ s.toList) ∧ p.segments ≠ [""]

/-- Every text denotes a path that a text can carry. -/
theorem Carried.ofText (text : String) : (ofText text).Carried := by
  by_cases hblank : Text.trimChars text.toList = []
  · have hnone : (Path.ofText text).segments = [] := by
      rw [Path.ofText, if_pos (by rw [hblank]; rfl)]
      rfl
    rw [Carried, hnone]
    exact ⟨List.forall_mem_nil _, (List.cons_ne_nil _ _).symm⟩
  · have hsegments : (Path.ofText text).segments =
        (splitDots (Text.trimChars text.toList)).map
          fun part => Text.trim (String.ofList part) := by
      rw [Path.ofText, if_neg (by rwa [List.isEmpty_iff]), segments_ofSegments, List.map_map]
      rfl
    refine ⟨?_, ?_⟩
    · rw [hsegments, List.forall_mem_map]
      intro part hpart hdot
      rw [Text.trim, String.toList_ofList, String.toList_ofList] at hdot
      exact dot_not_mem_of_mem_splitDots hpart (Text.mem_of_mem_trimChars hdot)
    · -- A single part is the whole trimmed text, which is not blank.
      intro hsingle
      rw [hsegments] at hsingle
      obtain ⟨part, hpart, hempty⟩ := List.map_eq_singleton_iff.1 hsingle
      have hwhole := joinDots_splitDots (Text.trimChars text.toList)
      rw [hpart, joinDots] at hwhole
      rw [hwhole, Text.trim, String.toList_ofList, Text.trimChars_trimChars,
        String.ofList_eq_empty_iff] at hempty
      exact hblank hempty

theorem ofText_text_eq_self_iff {p : Path} : ofText p.text = p ↔ p.Carried :=
  ⟨fun h => h ▸ Carried.ofText p.text, fun h => ofText_text_of_dotless h.1 h.2⟩

/-! ## Segments joined -/

theorem joinDots_eq_intercalate (parts : List (List Char)) :
    joinDots parts = ['.'].intercalate parts := by
  induction parts with
  | nil => rfl
  | cons part parts ih =>
    cases parts with
    | nil => rw [joinDots, List.intercalate_singleton]
    | cons next parts =>
      rw [joinDots_cons_cons, ih, List.intercalate_cons_cons, List.append_assoc,
        List.singleton_append]

/-- Segments without dots make the same path one by one and joined, unless there is only a blank
one. -/
theorem ofText_intercalate {segments : List String} (hdots : ∀ s ∈ segments, '.' ∉ s.toList)
    (hblank : segments.map Text.trim ≠ [""]) :
    ofText (".".intercalate segments) = ofSegments segments := by
  have hchars : (".".intercalate segments).toList = joinDots (segments.map String.toList) := by
    rw [String.toList_intercalate, joinDots_eq_intercalate]
    rfl
  have hback : (segments.map String.toList).map String.ofList = segments := by
    rw [List.map_map]
    exact (List.map_congr_left fun s _ => String.ofList_toList).trans (List.map_id _)
  by_cases hnil : segments = []
  · rw [hnil]
    rfl
  · rw [ofText_of_ne_nil, hchars, splitDots_joinDots (by rwa [ne_eq, List.map_eq_nil_iff])
      (List.forall_mem_map.2 hdots), hback]
    rw [hchars]
    intro hempty
    -- A blank text has no dot, so that it is the only segment.
    match segments, hnil with
    | [s], _ =>
      rw [List.map_singleton, joinDots] at hempty
      rw [List.map_singleton, Text.trim, hempty] at hblank
      exact hblank rfl
    | s :: next :: segments, _ =>
      rw [List.map_cons, List.map_cons, joinDots_cons_cons] at hempty
      have hdot := Text.isBlank_of_trimChars_eq_nil hempty (c := '.')
        (List.mem_append_right _ List.mem_cons_self)
      exact absurd hdot (by decide)

end Path

/-! ## Forms in JSON -/

namespace Json

theorem eq_string_of_ofDocument? {depth : Nat} {document : Document} {s : String}
    (h : ofDocument? depth document = some (string s)) : document = .string s := by
  cases document with
  | string text => rw [ofDocument?] at h; cases h; rfl
  | missing | valueless | null | bool | number => rw [ofDocument?] at h; cases h
  | array | object =>
    rw [ofDocument?] at h
    split at h
    · obtain ⟨_, -, h⟩ := Option.map_eq_some_iff.1 h
      cases h
    · cases h

theorem eq_map_string_of_ofElements? {depth : Nat} {documents : List Document}
    {segments : List String} (h : ofElements? depth documents = some (segments.map string)) :
    documents = segments.map .string := by
  induction documents generalizing segments with
  | nil =>
    rw [ofElements?, Option.some.injEq, eq_comm, List.map_eq_nil_iff] at h
    rw [h]
    rfl
  | cons document documents ih =>
    rw [ofElements?] at h
    split at h
    · next element elements helement helements =>
      rw [Option.some.injEq, eq_comm, List.map_eq_cons_iff] at h
      obtain ⟨s, rest, rfl, rfl, rfl⟩ := h
      rw [eq_string_of_ofDocument? helement, ih helements, List.map_cons]
    · cases h

theorem eq_array_of_ofDocument? {depth : Nat} {document : Document} {segments : List String}
    (h : ofDocument? depth document = some (array (segments.map string))) :
    document = .array (segments.map .string) true := by
  cases document with
  | missing | valueless | null | bool | number | string => rw [ofDocument?] at h; cases h
  | object =>
    rw [ofDocument?] at h
    split at h
    · obtain ⟨_, -, h⟩ := Option.map_eq_some_iff.1 h
      cases h
    · cases h
  | array elements closed =>
    rw [ofDocument?] at h
    split at h
    · next hclosed =>
      obtain ⟨_, helements, h⟩ := Option.map_eq_some_iff.1 h
      cases h
      rw [Bool.and_eq_true] at hclosed
      rw [eq_map_string_of_ofElements? helements, hclosed.1]
    · cases h

/-- The document of a text that denotes a value. -/
theorem ofDocument?_of_parse? {text : String} {j : Json} (h : parse? text = some j) :
    (Document.read text).2 = true ∧ ofDocument? maxNesting (Document.read text).1 = some j := by
  unfold parse? at h
  split at h
  · next document hread => exact ⟨by rw [hread], by rw [hread]; exact h⟩
  · cases h

theorem parse?_of_read {text : String} {document : Document} {j : Json}
    (hread : Document.read text = (document, true)) (h : ofDocument? maxNesting document = some j) :
    parse? text = some j := by
  rw [parse?, hread]
  exact h

end Json

namespace Path

theorem readEach_segmentOfDocument (segments : List String) :
    Json.readEach segmentOfDocument (segments.map .string) = .ok segments := by
  induction segments with
  | nil => rfl
  | cons s segments ih =>
    rw [List.map_cons, Json.readEach]
    simp only [segmentOfDocument, ih]

/-- Any JSON text of a string is read as the path that the string denotes. -/
theorem ofText_ofDocument_of_string {json text : String}
    (h : Json.parse? json = some (.string text)) :
    Reader.ofText ofDocument json = .ok (ofText text) := by
  obtain ⟨hjson, hdocument⟩ := Json.ofDocument?_of_parse? h
  refine Reader.ofText_eq_ok_iff.2 ⟨?_, hjson⟩
  rw [Json.eq_string_of_ofDocument? hdocument]
  rfl

/-- Any JSON text of a list of strings is read as the path with these segments. -/
theorem ofText_ofDocument_of_array {json : String} {segments : List String}
    (h : Json.parse? json = some (.array (segments.map .string))) :
    Reader.ofText ofDocument json = .ok (ofSegments segments) := by
  obtain ⟨hjson, hdocument⟩ := Json.ofDocument?_of_parse? h
  refine Reader.ofText_eq_ok_iff.2 ⟨?_, hjson⟩
  rw [Json.eq_array_of_ofDocument? hdocument, ofDocument, Json.readList]
  simp only [readEach_segmentOfDocument]
  rfl

/-- **Paths and their texts.** A path is read back from its text exactly when no segment has a dot
and it is not the single blank segment, so that nothing is lost by writing what a text denotes. A
list of segments, its JSON and the JSON of its dotted text are the same path, unless a segment has
a dot or there is only a blank one. -/
theorem ofText_text_iff :
    (∀ p : Path, ofText p.text = p ↔
      (∀ s ∈ p.segments, '.' ∉ s.toList) ∧ p.segments ≠ [""]) ∧
    (∀ text, ofText (ofText text).text = ofText text) ∧
    ∀ segments : List String, (∀ s ∈ segments, '.' ∉ s.toList) → segments.map Text.trim ≠ [""] →
      (∀ json, Json.parse? json = some (.array (segments.map .string)) →
        Reader.ofText ofDocument json = .ok (ofSegments segments)) ∧
      ∀ json, Json.parse? json = some (.string (".".intercalate segments)) →
        Reader.ofText ofDocument json = .ok (ofSegments segments) := by
  refine ⟨fun p => ofText_text_eq_self_iff,
    fun text => ofText_text_eq_self_iff.2 (Carried.ofText text), ?_⟩
  intro segments hdots hblank
  refine ⟨fun json h => ofText_ofDocument_of_array h, fun json h => ?_⟩
  rw [ofText_ofDocument_of_string h, ofText_intercalate hdots hblank]

/-- Blanks stay inside of segments, and blank segments stay at the ends. -/
theorem ofText_text_iff_zip :
    Reader.ofText ofDocument "[\"\", \" Zip\\u0020Code \"]" = .ok (ofSegments ["", "Zip Code"]) ∧
    Reader.ofText ofDocument " \". Zip Code \"" = .ok (ofSegments ["", "Zip Code"]) := by
  obtain ⟨hlist, htext⟩ := ofText_text_iff.2.2 ["", " Zip Code "] (by decide) (by decide)
  refine ⟨?_, ?_⟩
  · have hread : Document.read "[\"\", \" Zip\\u0020Code \"]" =
        (.array [.string "", .string " Zip Code "] true, true) := by
      have hchars : "[\"\", \" Zip\\u0020Code \"]".toList =
          ['[', '"', '"', ',', ' ', '"', ' ', 'Z', 'i', 'p', '\\', 'u', '0', '0', '2', '0', 'C',
            'o', 'd', 'e', ' ', '"', ']'] := rfl
      rw [Document.read, hchars, Document.readOn_cons rfl]
      show Document.readOn [.array []] .firstElement _ = _
      rw [Document.readOn_cons rfl]
      show Document.readOn [.array [.string ""]] .separator _ = _
      rw [Document.readOn_cons rfl]
      show Document.readOn [.array [.string ""]] .value _ = _
      rw [Document.readOn_space rfl, Document.readOn_cons rfl]
      show Document.readOn [.array [.string " Zip Code ", .string ""]] .separator _ = _
      rw [Document.readOn_cons rfl]
      rfl
    rw [hlist _ (Json.parse?_of_read hread rfl)]
    rfl
  · have hread : Document.read " \". Zip Code \"" = (.string ". Zip Code ", true) := by
      have hchars : " \". Zip Code \"".toList =
          [' ', '"', '.', ' ', 'Z', 'i', 'p', ' ', 'C', 'o', 'd', 'e', ' ', '"'] := rfl
      rw [Document.read, hchars, Document.readOn_space rfl, Document.readOn_cons rfl]
      rfl
    rw [htext _ (Json.parse?_of_read hread rfl)]
    rfl

end Path

end RecordFilter
