import RecordFilter.Proofs.JsonText
import RecordFilter.Proofs.NumberTexts

/-!
# Documents and the texts that they are read from

What a text that is JSON can be read as. Reading holds an invariant if every token does
(`readOn_induction`), so a text with an open container ends as a container, and nothing is missing
in a document. Outside containers a numeral of JSON is read as its number, and a number is read from
nothing else (`read_of_fills`, `exists_fills_of_read`).

A document has a value just if no part of it lacks one and its containers are not nested too deeply
(`isSome_ofDocument?_iff`).
-/

namespace RecordFilter

namespace Json

namespace Document

/-! ## Parts of documents -/

/-- An array or an object. -/
def IsContainer : Document → Prop
  | .array .. | .object .. => True
  | _ => False

instance (document : Document) : Decidable document.IsContainer := by
  unfold IsContainer
  split <;> infer_instance

/-- The parts of a document: the document itself, and those of its elements and members. -/
inductive Part (part : Document) : Document → Prop where
  | self : Part part part
  | element {elements : List Document} {closed : Bool} {element : Document} :
    element ∈ elements → Part part element → Part part (.array elements closed)
  | member {members : List (Option String × Document)} {closed : Bool}
    {member : Option String × Document} :
    member ∈ members → Part part member.2 → Part part (.object members closed)

/-- All parts of a document have a property. -/
def Everywhere (P : Document → Prop) (document : Document) : Prop :=
  ∀ part, Part part document → P part

variable {P : Document → Prop}

theorem everywhere_leaf {document : Document} (h : ¬ document.IsContainer) :
    document.Everywhere P ↔ P document := by
  constructor
  · exact fun hall => hall _ .self
  · intro hdocument part hpart
    cases hpart with
    | self => exact hdocument
    | element | member => exact absurd trivial h

theorem everywhere_array {elements : List Document} {closed : Bool} :
    (array elements closed).Everywhere P ↔
      P (.array elements closed) ∧ ∀ element ∈ elements, element.Everywhere P := by
  constructor
  · exact fun hall => ⟨hall _ .self, fun element hmem part hpart => hall _ (.element hmem hpart)⟩
  · rintro ⟨hself, hinside⟩ part hpart
    cases hpart with
    | self => exact hself
    | element hmem hpart => exact hinside _ hmem _ hpart

theorem everywhere_object {members : List (Option String × Document)} {closed : Bool} :
    (object members closed).Everywhere P ↔
      P (.object members closed) ∧ ∀ member ∈ members, member.2.Everywhere P := by
  constructor
  · exact fun hall => ⟨hall _ .self, fun member hmem part hpart => hall _ (.member hmem hpart)⟩
  · rintro ⟨hself, hinside⟩ part hpart
    cases hpart with
    | self => exact hself
    | member hmem hpart => exact hinside _ hmem _ hpart

/-- What is true of leaves, and of containers if it is of what they contain, is true of all
documents. -/
theorem induction_on (leaf : ∀ document : Document, ¬ document.IsContainer → P document)
    (array : ∀ elements closed, (∀ element ∈ elements, P element) → P (.array elements closed))
    (object : ∀ members closed, (∀ member ∈ members, P member.2) → P (.object members closed))
    (document : Document) : P document :=
  match document with
  | .missing | .valueless | .null | .bool _ | .number _ | .string _ => leaf _ id
  | .array elements closed =>
    array elements closed fun element _hmem => induction_on leaf array object element
  | .object members closed =>
    object members closed fun member _hmem => induction_on leaf array object member.2
termination_by sizeOf document
decreasing_by
  · have := List.sizeOf_lt_of_mem _hmem
    rw [Document.array.sizeOf_spec]
    omega
  · have := List.sizeOf_lt_of_mem _hmem
    have : sizeOf member.2 < sizeOf member := by
      obtain ⟨key, value⟩ := member
      show sizeOf value < _
      rw [Prod.mk.sizeOf_spec]
      omega
    rw [Document.object.sizeOf_spec]
    omega

/-! ## What a token does -/

/-- What a token can do where a value is waited for. -/
inductive Begins (frames : List Frame) : Progress → Prop where
  | stuck : Begins frames .stuck
  | opens {frame : Frame} (expected : Expected) (rest : List Char) :
    frame = .array [] ∨ frame = .object [] →
    Begins frames (.reading (frame :: frames) expected rest)
  | leaf {document : Document} (rest : List Char) :
    ¬ document.IsContainer → document ≠ .missing → Begins frames (deliver document rest frames)

/-- What a token can do where some containers are open. -/
inductive Step (frames : List Frame) : Progress → Prop where
  | begins {progress : Progress} : Begins frames progress → Step frames progress
  | moves (expected : Expected) (rest : List Char) : Step frames (.reading frames expected rest)
  | names {members : List (Option String × Document)} {outer : List Frame} (key : Option String)
    (rest : List Char) : frames = .object members :: outer →
    Step frames (.reading (.member members key :: outer) .colon rest)
  | closesEmpty {document : Document} (rest : List Char) :
    document = .array [] true ∨ document = .object [] true →
    Step frames (deliver document rest frames.tail)
  | closesArray {elements : List Document} {outer : List Frame} (rest : List Char) :
    frames = .array elements :: outer →
    Step frames (deliver (.array elements.reverse true) rest outer)
  | closesObject {members : List (Option String × Document)} {outer : List Frame}
    (rest : List Char) : frames = .object members :: outer →
    Step frames (deliver (.object members.reverse true) rest outer)

variable {frames : List Frame} {expected : Expected} {c : Char} {cs : List Char}

theorem begins_readWord (document : Document) (h : ¬ document.IsContainer)
    (hmissing : document ≠ .missing) (word : List Char) :
    Begins frames (readWord word document frames cs) := by
  unfold readWord
  split
  · exact .leaf _ h hmissing
  · exact .stuck

theorem begins_readValue : Begins frames (readValue frames c cs) := by
  unfold readValue
  split
  · exact .opens _ _ (.inl rfl)
  split
  · exact .opens _ _ (.inr rfl)
  split
  · split
    · exact .stuck
    · exact .leaf _ id nofun
    · exact .leaf _ id nofun
  split
  · exact begins_readWord null id nofun _
  split
  · exact begins_readWord (bool true) id nofun _
  split
  · exact begins_readWord (bool false) id nofun _
  split
  · exact .stuck
  · split <;> exact .leaf _ id nofun

theorem step_readKey : Step frames (readKey frames c cs) := by
  unfold readKey
  split
  · split
    · split
      · exact .begins .stuck
      · exact .names _ _ rfl
    · exact .begins .stuck
  · exact .begins .stuck

theorem step_readToken : Step frames (readToken frames expected c cs) := by
  unfold readToken
  split
  · exact .begins begins_readValue
  · split
    · exact .closesEmpty _ (.inl rfl)
    · exact .begins begins_readValue
  · exact step_readKey
  · split
    · exact .closesEmpty _ (.inr rfl)
    · exact step_readKey
  · split
    · exact .moves ..
    · exact .begins .stuck
  · split
    · split
      · exact .moves ..
      · split
        · exact .closesArray _ rfl
        · exact .begins .stuck
    · split
      · exact .moves ..
      · split
        · exact .closesObject _ rfl
        · exact .begins .stuck
    · exact .begins .stuck

/-! ## What reading preserves -/

/-- Where reading stands, the open containers have one property or the finished document
another. -/
def Progress.Holds (Open : List Frame → Prop) (P : Document → Prop) : Progress → Prop
  | .reading frames _ _ => Open frames
  | .finished document _ => P document
  | .stuck => True

/-- **What every token preserves**, reading a text that is JSON preserves. -/
theorem readOn_induction (Open : List Frame → Prop)
    (hstep : ∀ {frames progress}, Step frames progress → Open frames → progress.Holds Open P)
    (hopen : Open frames) {document : Document}
    (h : readOn frames expected cs = (document, true)) : P document := by
  fun_induction readOn frames expected cs with
  | case1 => cases h
  | case2 frames expected c cs hspace ih => exact ih hopen h
  | case3 => cases h
  | case4 frames expected c cs hspace finished rest hfinished =>
    have hstepped : Step frames (.finished finished rest) := hfinished ▸ step_readToken
    exact (Prod.mk.inj h).1 ▸ hstep hstepped hopen
  | case5 frames expected c cs hspace frames' expected' rest hreading ih =>
    have hstepped : Step frames (.reading frames' expected' rest) := hreading ▸ step_readToken
    exact ih (hstep hstepped hopen) h

/-! ### Containers -/

theorem holds_deliver_of_isContainer {document : Document} (h : document.IsContainer)
    (rest : List Char) : (deliver document rest frames).Holds (· ≠ []) IsContainer := by
  unfold deliver
  split
  · exact h
  · exact List.cons_ne_nil _ _
  · exact List.cons_ne_nil _ _
  · trivial

theorem holds_deliver_of_ne_nil (h : frames ≠ []) (document : Document) (rest : List Char) :
    (deliver document rest frames).Holds (· ≠ []) IsContainer := by
  unfold deliver
  split
  · exact absurd rfl h
  · exact List.cons_ne_nil _ _
  · exact List.cons_ne_nil _ _
  · trivial

/-- Where a container is open, a container is read. -/
theorem isContainer_of_readOn (hopen : frames ≠ []) {document : Document}
    (h : readOn frames expected cs = (document, true)) : document.IsContainer := by
  refine readOn_induction (· ≠ []) ?_ hopen h
  intro frames progress hstep hopen
  cases hstep with
  | begins hbegins =>
    cases hbegins with
    | stuck => trivial
    | opens => exact List.cons_ne_nil _ _
    | leaf rest => exact holds_deliver_of_ne_nil hopen _ rest
  | moves => exact hopen
  | names => exact List.cons_ne_nil _ _
  | closesEmpty rest hdocument =>
    refine holds_deliver_of_isContainer ?_ rest
    rcases hdocument with rfl | rfl <;> trivial
  | closesArray rest | closesObject rest =>
    refine holds_deliver_of_isContainer ?_ rest
    trivial

/-! ### Nothing is missing -/

/-- A document is there, and closed if it is a container. -/
def IsWhole : Document → Prop
  | .missing => False
  | .array _ closed | .object _ closed => closed = true
  | _ => True

/-- All that was read of an open container is whole. -/
def Frame.IsWhole : Frame → Prop
  | .array elements => ∀ element ∈ elements, element.Everywhere Document.IsWhole
  | .object members | .member members _ =>
    ∀ member ∈ members, member.2.Everywhere Document.IsWhole

theorem holds_deliver_of_isWhole {document : Document} (hdocument : document.Everywhere IsWhole)
    (hframes : ∀ frame ∈ frames, frame.IsWhole) (rest : List Char) :
    (deliver document rest frames).Holds (∀ frame ∈ ·, frame.IsWhole) (Everywhere IsWhole) := by
  unfold deliver
  split
  · exact hdocument
  · rw [List.forall_mem_cons] at hframes
    exact List.forall_mem_cons.2 ⟨List.forall_mem_cons.2 ⟨hdocument, hframes.1⟩, hframes.2⟩
  · rw [List.forall_mem_cons] at hframes
    exact List.forall_mem_cons.2 ⟨List.forall_mem_cons.2 ⟨hdocument, hframes.1⟩, hframes.2⟩
  · trivial

/-- **All parts of a document that is read from JSON are there**, and all its containers closed. -/
theorem isWhole_of_read {text : String} {document : Document} (h : read text = (document, true)) :
    document.Everywhere IsWhole := by
  refine readOn_induction (∀ frame ∈ ·, frame.IsWhole) ?_ (by simp) h
  intro frames progress hstep hopen
  cases hstep with
  | begins hbegins =>
    cases hbegins with
    | stuck => trivial
    | opens expected rest hframe =>
      refine List.forall_mem_cons.2 ⟨?_, hopen⟩
      rcases hframe with rfl | rfl <;> exact fun _ hmem => nomatch hmem
    | @leaf document rest hleaf hmissing =>
      refine holds_deliver_of_isWhole ((everywhere_leaf hleaf).2 ?_) hopen rest
      cases document with
      | missing => exact absurd rfl hmissing
      | array | object => exact absurd trivial hleaf
      | _ => trivial
  | moves => exact hopen
  | names key rest hframes =>
    subst hframes
    obtain ⟨hmembers, houter⟩ := List.forall_mem_cons.1 hopen
    exact List.forall_mem_cons.2 ⟨hmembers, houter⟩
  | closesEmpty rest hdocument =>
    refine holds_deliver_of_isWhole ?_ (fun frame hmem => hopen frame (List.mem_of_mem_tail hmem))
      rest
    rcases hdocument with rfl | rfl
    · exact everywhere_array.2 ⟨rfl, nofun⟩
    · exact everywhere_object.2 ⟨rfl, nofun⟩
  | closesArray rest hframes =>
    subst hframes
    obtain ⟨helements, houter⟩ := List.forall_mem_cons.1 hopen
    exact holds_deliver_of_isWhole
      (everywhere_array.2 ⟨rfl, fun e hmem => helements e (List.mem_reverse.1 hmem)⟩) houter rest
  | closesObject rest hframes =>
    subst hframes
    obtain ⟨hmembers, houter⟩ := List.forall_mem_cons.1 hopen
    exact holds_deliver_of_isWhole
      (everywhere_object.2 ⟨rfl, fun m hmem => hmembers m (List.mem_reverse.1 hmem)⟩) houter rest

/-! ## Scalars -/

/-- A token that is read outside containers opens one, if reading goes on after it. -/
theorem ne_nil_of_readValue {rest : List Char}
    (h : readValue [] c cs = .reading frames expected rest) : frames ≠ [] := by
  have hbegins : Begins [] (readValue [] c cs) := begins_readValue
  rw [h] at hbegins
  generalize hprogress : Progress.reading frames expected rest = progress at hbegins
  cases hbegins with
  | stuck => cases hprogress
  | opens =>
    cases hprogress
    exact List.cons_ne_nil _ _
  | leaf => cases hprogress

/-- What is read from a text is a container, or it is read from a single token. -/
theorem exists_readValue {document : Document} (hleaf : ¬ document.IsContainer)
    (h : readOn [] .value cs = (document, true)) :
    ∃ before c inner after, cs = before ++ c :: inner ∧ before.all isSpace = true ∧
      after.all isSpace = true ∧ readValue [] c inner = .finished document after := by
  induction cs with
  | nil =>
    rw [readOn] at h
    cases h
  | cons c cs ih =>
    by_cases hspace : isSpace c = true
    · rw [readOn_space hspace] at h
      obtain ⟨before, d, inner, after, rfl, hbefore, hafter, hread⟩ := ih h
      exact ⟨c :: before, d, inner, after, rfl, by rw [List.all_cons, hspace, hbefore]; rfl,
        hafter, hread⟩
    · rw [readOn_cons (Bool.not_eq_true _ ▸ hspace), readToken] at h
      refine ⟨[], c, cs, ?_⟩
      cases hread : readValue [] c cs with
      | stuck =>
        rw [hread] at h
        cases h
      | finished finished rest =>
        rw [hread] at h
        obtain ⟨rfl, hrest⟩ := Prod.mk.inj h
        exact ⟨rest, rfl, rfl, hrest, rfl⟩
      | reading frames expected rest =>
        rw [hread] at h
        exact absurd (isContainer_of_readOn (ne_nil_of_readValue hread) h) hleaf

theorem readOn_blanks {before : List Char} (h : before.all isSpace = true) (cs : List Char) :
    readOn frames expected (before ++ cs) = readOn frames expected cs := by
  induction before with
  | nil => rfl
  | cons c before ih =>
    rw [List.all_cons, Bool.and_eq_true] at h
    rw [List.cons_append, readOn_space h.1, ih h.2]

theorem exists_read_of_readValue {n : Number} {rest : List Char}
    (h : readValue [] c cs = .finished (.number n) rest) :
    ∃ pieces, NumberText.read (c :: cs) = some (pieces, rest) ∧ pieces.value? = some n := by
  have hword (word : List Char) (document : Document) (hdocument : document ≠ .number n) :
      readWord word document [] cs ≠ .finished (.number n) rest := by
    unfold readWord
    split
    · intro heq
      exact hdocument (Progress.finished.inj heq).1
    · nofun
  unfold readValue at h
  split at h
  · cases h
  split at h
  · cases h
  split at h
  · split at h <;> cases h
  split at h
  · exact absurd h (hword _ _ nofun)
  split at h
  · exact absurd h (hword _ _ nofun)
  split at h
  · exact absurd h (hword _ _ nofun)
  split at h
  · cases h
  · next pieces left hread =>
    split at h
    · cases h
    · next value hvalue =>
      cases h
      exact ⟨pieces, hread, hvalue⟩

end Document

end Json

/-- A text is a numeral of JSON, but for blanks around it. -/
def DecimalNumeral.Fills (t : DecimalNumeral) (text : String) : Prop :=
  t.IsJson ∧ ∃ before after, text.toList = before ++ (t.chars ++ after) ∧
    before.all Json.isSpace = true ∧ after.all Json.isSpace = true

namespace Json

theorem stopsNumber_of_isSpace {c : Char} (h : isSpace c = true) : StopsNumber c := by
  simp only [isSpace, Bool.or_eq_true, decide_eq_true_iff] at h
  rcases h with ((rfl | rfl) | rfl) | rfl <;> decide

theorem endsNumber_of_blank {rest : List Char} (h : rest.all isSpace = true) : EndsNumber rest := by
  cases rest with
  | nil => exact endsNumber_nil
  | cons c rest =>
    rw [List.all_cons, Bool.and_eq_true] at h
    exact endsNumber_cons (stopsNumber_of_isSpace h.1)

namespace Document

/-- **The text of a numeral is read** as its number, or as one without a value. -/
theorem read_of_fills {t : DecimalNumeral} {text : String} (h : t.Fills text) :
    read text = (ofValue? t.pieces.value?, true) := by
  obtain ⟨hjson, before, after, htext, hbefore, hafter⟩ := h
  have hread := NumberText.read_append (NumberText.read_chars hjson) (endsNumber_of_blank hafter)
  obtain ⟨c, cs, hchars, hc⟩ := NumberText.exists_cons_of_read hread
  rw [hchars, List.nil_append] at hread
  rw [read, htext, readOn_blanks hbefore, hchars, readOn_cons hc.isSpace_eq, readToken,
    readValue_of_read hread]
  exact congrArg (Prod.mk _) hafter

/-- **A number is read only from a numeral of JSON.** -/
theorem exists_fills_of_read {text : String} {n : Number} (h : read text = (.number n, true)) :
    ∃ t : DecimalNumeral, t.Fills text ∧ t.pieces.value? = some n := by
  obtain ⟨before, c, inner, after, htext, hbefore, hafter, hread⟩ := exists_readValue id h
  obtain ⟨pieces, hpieces, hvalue⟩ := exists_read_of_readValue hread
  obtain ⟨t, hjson, rfl, hchars⟩ := NumberText.exists_numeral_of_read hpieces
  exact ⟨t, ⟨hjson, before, after, by rw [htext, hchars], hbefore, hafter⟩, hvalue⟩

/-! ## Documents with a value -/

mutual

/-- How deeply containers are nested in a document. -/
def nesting : Document → Nat
  | .array elements _ => nestingOfElements elements + 1
  | .object members _ => nestingOfMembers members + 1
  | _ => 0

def nestingOfElements : List Document → Nat
  | [] => 0
  | element :: elements => max element.nesting (nestingOfElements elements)

def nestingOfMembers : List (Option String × Document) → Nat
  | [] => 0
  | (_, element) :: members => max element.nesting (nestingOfMembers members)

end

/-- A document does not lack a value itself, nor does one of its keys. -/
def IsValued : Document → Prop
  | .valueless => False
  | .object members _ => ∀ member ∈ members, member.1 ≠ none
  | _ => True

theorem nestingOfElements_le_iff {elements : List Document} {depth : Nat} :
    nestingOfElements elements ≤ depth ↔ ∀ element ∈ elements, element.nesting ≤ depth := by
  induction elements with
  | nil => exact ⟨fun _ => nofun, fun _ => Nat.zero_le _⟩
  | cons element elements ih => rw [nestingOfElements, Nat.max_le, ih, List.forall_mem_cons]

theorem nestingOfMembers_le_iff {members : List (Option String × Document)} {depth : Nat} :
    nestingOfMembers members ≤ depth ↔ ∀ member ∈ members, member.2.nesting ≤ depth := by
  induction members with
  | nil => exact ⟨fun _ => nofun, fun _ => Nat.zero_le _⟩
  | cons member members ih => rw [nestingOfMembers, Nat.max_le, ih, List.forall_mem_cons]

theorem isSome_ofElements?_iff {depth : Nat} {elements : List Document} :
    (ofElements? depth elements).isSome = true ↔
      ∀ element ∈ elements, (ofDocument? depth element).isSome = true := by
  induction elements with
  | nil => exact ⟨fun _ => nofun, fun _ => rfl⟩
  | cons element elements ih =>
    rw [List.forall_mem_cons, ← ih, ofElements?]
    cases ofDocument? depth element <;> cases ofElements? depth elements <;> simp

theorem isSome_ofMembers?_iff {depth : Nat} {members : List (Option String × Document)}
    {sorted : List (String × Json)} :
    (ofMembers? depth sorted members).isSome = true ↔
      ∀ member ∈ members, member.1 ≠ none ∧ (ofDocument? depth member.2).isSome = true := by
  induction members generalizing sorted with
  | nil => exact ⟨fun _ => nofun, fun _ => rfl⟩
  | cons member members ih =>
    obtain ⟨key, element⟩ := member
    rw [List.forall_mem_cons]
    cases key with
    | none => simp [ofMembers?]
    | some key =>
      rw [ofMembers?]
      cases ofDocument? depth element <;> simp [ih]

/-- **A document has a value** just if all of it is there, no part of it lacks a value, and its
containers are not nested too deeply. -/
theorem isSome_ofDocument?_iff {document : Document} {depth : Nat} :
    (ofDocument? depth document).isSome = true ↔ document.Everywhere IsWhole ∧
      document.Everywhere IsValued ∧ document.nesting ≤ depth := by
  induction document using induction_on generalizing depth with
  | leaf document hleaf =>
    rw [everywhere_leaf hleaf, everywhere_leaf hleaf]
    cases document with
    | array | object => exact absurd trivial hleaf
    | missing | valueless | null | bool | number | string =>
      simp [ofDocument?, IsWhole, IsValued, nesting]
  | array elements closed ih =>
    have hinside (depth : Nat) :
        (ofElements? depth elements).isSome = true ↔
          (∀ element ∈ elements, element.Everywhere IsWhole) ∧
            (∀ element ∈ elements, element.Everywhere IsValued) ∧
              nestingOfElements elements ≤ depth := by
      rw [isSome_ofElements?_iff, nestingOfElements_le_iff, ← forall₂_and, ← forall₂_and]
      exact forall₂_congr fun element hmem => ih element hmem
    rw [everywhere_array, everywhere_array, nesting, ofDocument?]
    cases closed <;> cases depth <;> simp [IsWhole, IsValued, hinside]
  | object members closed ih =>
    have hinside (depth : Nat) :
        (ofMembers? depth [] members).isSome = true ↔
          (∀ member ∈ members, member.2.Everywhere IsWhole) ∧
            ((∀ member ∈ members, member.1 ≠ none) ∧
              ∀ member ∈ members, member.2.Everywhere IsValued) ∧
                nestingOfMembers members ≤ depth := by
      rw [isSome_ofMembers?_iff, nestingOfMembers_le_iff, ← forall₂_and, ← forall₂_and,
        ← forall₂_and]
      refine forall₂_congr fun member hmem => ?_
      rw [ih member hmem]
      tauto
    rw [everywhere_object, everywhere_object, nesting, ofDocument?]
    cases closed <;> cases depth <;> simp [IsWhole, IsValued, hinside]

end Document

end Json

end RecordFilter
