import RecordFilter.Proofs.FirstError
import RecordFilter.Proofs.Numbers
import RecordFilter.Proofs.Quoting

/-!
# JSON values, written and read

The reader is a loop over the open containers, so what it makes of a written value is said in front
of any containers that wait for a value and any text that can follow one: reading hands a document
to the innermost container and goes on behind the value (`Json.ReadsAs`). Leaves take one token, and
arrays and objects are read as the documents of their parts. `read_text` draws the conclusion for a
whole text.
-/

namespace RecordFilter.Json

open Document

/-! ## Steps of the reader -/

namespace Document

/-- The innermost open container waits for a value. -/
def Awaits : List Frame → Prop
  | .object _ :: _ => False
  | _ => True

/-- Reads on after a token. -/
def Progress.resume (frames : List Frame) : Progress → Document × Bool
  | .stuck => (leaveOpen frames none, false)
  | .finished document rest => (document, rest.all isSpace)
  | .reading frames expected rest => readOn frames expected rest

theorem readOn_cons {c : Char} (h : isSpace c = false) (frames : List Frame) (expected : Expected)
    (cs : List Char) :
    readOn frames expected (c :: cs) = (readToken frames expected c cs).resume frames := by
  rw [readOn, if_neg (by rw [h]; exact Bool.false_ne_true)]
  split
  all_goals next hstep => rw [hstep, Progress.resume]

theorem readOn_space {c : Char} (h : isSpace c = true) (frames : List Frame) (expected : Expected)
    (cs : List Char) : readOn frames expected (c :: cs) = readOn frames expected cs := by
  rw [readOn, if_pos h]

/-- Where a value is waited for, delivering one does not get stuck. -/
theorem resume_deliver {frames : List Frame} (h : Awaits frames) (others : List Frame)
    (document : Document) (rest : List Char) :
    (deliver document rest frames).resume others =
      (deliver document rest frames).resume frames := by
  match frames, h with
  | [], _ => rfl
  | .array _ :: _, _ => rfl
  | .member _ _ :: _, _ => rfl

end Document

/-- A written value is read as a document, whatever is open before it and follows it. -/
structure ReadsAs (j : Json) (document : Document) : Prop where
  starts : ∃ c cs, j.chars = c :: cs ∧ isSpace c = false ∧ c ≠ ']'
  reads : ∀ frames rest, Awaits frames → EndsNumber rest →
    readOn frames .value (j.chars ++ rest) = (deliver document rest frames).resume frames

/-- A value that one token takes up. -/
theorem ReadsAs.of_readValue {j : Json} {document : Document} {c : Char} {cs : List Char}
    (hchars : j.chars = c :: cs) (hspace : isSpace c = false) (hbracket : c ≠ ']')
    (h : ∀ frames rest, EndsNumber rest →
      readValue frames c (cs ++ rest) = deliver document rest frames) :
    j.ReadsAs document := by
  refine ⟨⟨c, cs, hchars, hspace, hbracket⟩, ?_⟩
  intro frames rest _ hrest
  rw [hchars, List.cons_append, readOn_cons hspace, readToken, h frames rest hrest]

/-! ## Leaves -/

theorem readsAs_null : null.ReadsAs .null :=
  .of_readValue (by rw [chars]; rfl) rfl (by decide) fun _ _ _ => rfl

theorem readsAs_bool (value : Bool) : (bool value).ReadsAs (.bool value) := by
  cases value
  · exact .of_readValue (by rw [chars]; rfl) rfl (by decide) fun _ _ _ => rfl
  · exact .of_readValue (by rw [chars]; rfl) rfl (by decide) fun _ _ _ => rfl

theorem readsAs_string (text : String) : (string text).ReadsAs (.string text) := by
  have hchars : (string text).chars = '"' :: (text.toList.flatMap escapeChar ++ ['"']) := by
    rw [chars, quote, List.cons_append]
  refine .of_readValue hchars rfl (by decide) ?_
  intro frames rest _
  rw [List.append_assoc, List.singleton_append, readValue]
  simp only [unquote_escaped]
  rfl

/-- The special floats are written as null. -/
theorem readsAs_special {x : Binary64} (h : x.isFinite = false) :
    (number (.float x)).ReadsAs .null := by
  have hchars : (number (.float x)).chars = ['n', 'u', 'l', 'l'] := by
    rw [chars, Number.chars, h]
    rfl
  exact .of_readValue hchars rfl (by decide) fun _ _ _ => rfl

theorem StartsNumber.ne {c d : Char} (hc : StartsNumber c) (hd : ¬ StartsNumber d) : c ≠ d := by
  rintro rfl
  exact hd hc

theorem StartsNumber.isSpace_eq {c : Char} (h : StartsNumber c) : isSpace c = false := by
  simp only [isSpace, Bool.or_eq_false_iff, decide_eq_false_iff_not]
  exact ⟨⟨⟨h.ne (by decide), h.ne (by decide)⟩, h.ne (by decide)⟩, h.ne (by decide)⟩

/-- The document of a number that may have no value. -/
def Document.ofValue? : Option Number → Document
  | none => valueless
  | some value => number value

/-- No other kind of value starts like a number. -/
theorem readValue_of_read {c : Char} {cs rest : List Char} {pieces : NumberText}
    (h : NumberText.read (c :: cs) = some (pieces, rest)) (frames : List Frame) :
    readValue frames c cs = deliver (ofValue? pieces.value?) rest frames := by
  obtain ⟨_, _, heq, hc⟩ := NumberText.exists_cons_of_read h
  obtain ⟨rfl, rfl⟩ := List.cons.inj heq
  rw [readValue, if_neg (hc.ne (by decide)), if_neg (hc.ne (by decide)),
    if_neg (hc.ne (by decide)), if_neg (hc.ne (by decide)), if_neg (hc.ne (by decide)),
    if_neg (hc.ne (by decide)), h]
  dsimp only
  cases pieces.value? <;> rfl

theorem readsAs_number {n m : Number} (h : n.ReadsAs m) : (number n).ReadsAs (.number m) := by
  obtain ⟨pieces, hread, hvalue⟩ := h
  obtain ⟨c, cs, hchars, hc⟩ := NumberText.exists_cons_of_read hread
  refine .of_readValue (by rw [chars, hchars]) hc.isSpace_eq (hc.ne (by decide)) ?_
  intro frames rest hrest
  have happend := NumberText.read_append hread hrest
  rw [hchars, List.cons_append, List.nil_append] at happend
  rw [readValue_of_read happend, hvalue, ofValue?]

/-! ## Arrays -/

theorem readOn_endArray {frames : List Frame} (h : Awaits frames) (elements : List Document)
    (rest : List Char) :
    readOn (.array elements :: frames) .separator (']' :: rest) =
      (deliver (.array elements.reverse true) rest frames).resume frames := by
  rw [readOn_cons rfl, ← resume_deliver h]
  rfl

theorem readOn_nextElement (frames : List Frame) (elements : List Document) (rest : List Char) :
    readOn (.array elements :: frames) .separator (',' :: rest) =
      readOn (.array elements :: frames) .value rest := by
  rw [readOn_cons rfl]
  rfl

/-- The elements from some place on, up to the end of their array. -/
theorem readOn_elements {frames : List Frame} (hframes : Awaits frames) (rest : List Char)
    {element : Json} {elements : List Json} {documents : List Document}
    (h : List.Forall₂ ReadsAs (element :: elements) documents) (done : List Document) :
    readOn (.array done :: frames) .value (elementChars (element :: elements) ++ ']' :: rest) =
      (deliver (.array (done.reverse ++ documents) true) rest frames).resume frames := by
  induction elements generalizing element documents done with
  | nil =>
    obtain ⟨document, _, hread, hnil, rfl⟩ := List.forall₂_cons_left_iff.1 h
    cases hnil
    have hstep := hread.reads (.array done :: frames) (']' :: rest) trivial
      (endsNumber_cons (by decide))
    rw [elementChars, hstep, deliver, Progress.resume, readOn_endArray hframes, List.reverse_cons]
  | cons next elements ih =>
    obtain ⟨document, documents, hread, hrest, rfl⟩ := List.forall₂_cons_left_iff.1 h
    have hstep := hread.reads (.array done :: frames)
      (',' :: (elementChars (next :: elements) ++ ']' :: rest)) trivial
      (endsNumber_cons (by decide))
    rw [elementChars, List.append_assoc, List.cons_append, hstep, deliver, Progress.resume,
      readOn_nextElement, ih hrest, List.reverse_cons, List.append_assoc, List.singleton_append]
    exact List.cons_ne_nil _ _

/-- An array that does not end at once starts with a value. -/
theorem readOn_firstElement {c : Char} (hspace : isSpace c = false) (hbracket : c ≠ ']')
    (frames : List Frame) (cs : List Char) :
    readOn frames .firstElement (c :: cs) = readOn frames .value (c :: cs) := by
  have hfirst : readToken frames .firstElement c cs = readValue frames c cs := if_neg hbracket
  rw [readOn_cons hspace, readOn_cons hspace, hfirst, readToken]

theorem exists_elementChars_cons (element : Json) (elements : List Json) :
    ∃ tail, elementChars (element :: elements) = element.chars ++ tail := by
  cases elements with
  | nil => exact ⟨[], by rw [elementChars, List.append_nil]⟩
  | cons next elements =>
    exact ⟨',' :: elementChars (next :: elements),
      by rw [elementChars]; exact List.cons_ne_nil _ _⟩

theorem readsAs_array {elements : List Json} {documents : List Document}
    (h : List.Forall₂ ReadsAs elements documents) :
    (array elements).ReadsAs (.array documents true) := by
  have hchars : (array elements).chars = '[' :: (elementChars elements ++ [']']) := by
    rw [chars, List.cons_append]
  refine ⟨⟨'[', _, hchars, rfl, by decide⟩, ?_⟩
  intro frames rest hframes _
  rw [hchars, List.cons_append, List.append_assoc, List.singleton_append, readOn_cons rfl]
  show readOn (.array [] :: frames) .firstElement (elementChars elements ++ ']' :: rest) = _
  cases h with
  | nil =>
    rw [elementChars, List.nil_append, readOn_cons rfl, ← resume_deliver hframes]
    rfl
  | @cons element document elements documents hread hrest =>
    obtain ⟨c, cs, hstart, hspace, hbracket⟩ := hread.starts
    obtain ⟨tail, htail⟩ := exists_elementChars_cons element elements
    have hfirst : elementChars (element :: elements) ++ ']' :: rest =
        c :: (cs ++ (tail ++ ']' :: rest)) := by
      rw [htail, hstart, List.append_assoc, List.cons_append]
    rw [hfirst, readOn_firstElement hspace hbracket, ← hfirst,
      readOn_elements hframes rest (.cons hread hrest), List.reverse_nil, List.nil_append]

/-! ## Objects -/

/-- A member is read under its key. -/
def MemberReadsAs (m : String × Json) (document : Option String × Document) : Prop :=
  document.1 = some m.1 ∧ m.2.ReadsAs document.2

theorem readOn_endObject {frames : List Frame} (h : Awaits frames)
    (members : List (Option String × Document)) (rest : List Char) :
    readOn (.object members :: frames) .separator ('}' :: rest) =
      (deliver (.object members.reverse true) rest frames).resume frames := by
  rw [readOn_cons rfl, ← resume_deliver h]
  rfl

theorem readOn_nextMember (frames : List Frame) (members : List (Option String × Document))
    (rest : List Char) :
    readOn (.object members :: frames) .separator (',' :: rest) =
      readOn (.object members :: frames) .key rest := by
  rw [readOn_cons rfl]
  rfl

/-- A key and the colon after it. -/
theorem readOn_key (frames : List Frame) (members : List (Option String × Document)) (key : String)
    (rest : List Char) :
    readOn (.object members :: frames) .key (quote key.toList ++ ':' :: rest) =
      readOn (.member members (some key) :: frames) .value rest := by
  have hkey : readToken (.object members :: frames) .key '"'
      (key.toList.flatMap escapeChar ++ '"' :: ':' :: rest) =
        .reading (.member members (some key) :: frames) .colon (':' :: rest) := by
    simp only [readToken, readKey, unquote_escaped, if_true]
  rw [quote, List.append_assoc, List.cons_append, List.singleton_append, readOn_cons rfl, hkey,
    Progress.resume, readOn_cons rfl]
  rfl

/-- A member with the separator after it. -/
theorem readOn_member {frames : List Frame} {key : String} {value : Json} {c : Char}
    {document : Option String × Document} (h : MemberReadsAs (key, value) document)
    (hc : StopsNumber c) (done : List (Option String × Document)) (rest : List Char) :
    readOn (.object done :: frames) .key (quote key.toList ++ ':' :: (value.chars ++ c :: rest)) =
      readOn (.object (document :: done) :: frames) .separator (c :: rest) := by
  obtain ⟨hkey, hread⟩ := h
  rw [readOn_key, hread.reads (.member done (some key) :: frames) (c :: rest) trivial
    (endsNumber_cons hc), deliver, Progress.resume, ← hkey]

/-- The members from some place on, up to the end of their object. -/
theorem readOn_members {frames : List Frame} (hframes : Awaits frames) (rest : List Char)
    {member : String × Json} {members : List (String × Json)}
    {documents : List (Option String × Document)}
    (h : List.Forall₂ MemberReadsAs (member :: members) documents)
    (done : List (Option String × Document)) :
    readOn (.object done :: frames) .key (memberChars (member :: members) ++ '}' :: rest) =
      (deliver (.object (done.reverse ++ documents) true) rest frames).resume frames := by
  induction members generalizing member documents done with
  | nil =>
    obtain ⟨document, _, hread, hnil, rfl⟩ := List.forall₂_cons_left_iff.1 h
    cases hnil
    obtain ⟨key, value⟩ := member
    rw [memberChars, List.append_assoc, List.cons_append, readOn_member hread (by decide),
      readOn_endObject hframes, List.reverse_cons]
  | cons next members ih =>
    obtain ⟨document, documents, hread, hrest, rfl⟩ := List.forall₂_cons_left_iff.1 h
    obtain ⟨key, value⟩ := member
    have hchars : memberChars ((key, value) :: next :: members) ++ '}' :: rest =
        quote key.toList ++ ':' ::
          (value.chars ++ ',' :: (memberChars (next :: members) ++ '}' :: rest)) := by
      rw [memberChars]
      · simp only [List.append_assoc, List.cons_append]
      · exact List.cons_ne_nil _ _
    rw [hchars, readOn_member hread (by decide), readOn_nextMember, ih hrest, List.reverse_cons,
      List.append_assoc, List.singleton_append]

/-- An object that does not end at once starts with a key. -/
theorem readOn_firstKey (frames : List Frame) (cs : List Char) :
    readOn frames .firstKey ('"' :: cs) = readOn frames .key ('"' :: cs) := by
  rw [readOn_cons rfl, readOn_cons rfl]
  rfl

theorem exists_memberChars_cons (member : String × Json) (members : List (String × Json)) :
    ∃ tail, memberChars (member :: members) = '"' :: tail := by
  obtain ⟨key, value⟩ := member
  cases members with
  | nil => exact ⟨_, by rw [memberChars, quote]; rfl⟩
  | cons next members =>
    exact ⟨_, by rw [memberChars, quote]; rfl; exact List.cons_ne_nil _ _⟩

theorem readsAs_object {members : List (String × Json)}
    {documents : List (Option String × Document)}
    (h : List.Forall₂ MemberReadsAs members documents) :
    (object members).ReadsAs (.object documents true) := by
  have hchars : (object members).chars = '{' :: (memberChars members ++ ['}']) := by
    rw [chars, List.cons_append]
  refine ⟨⟨'{', _, hchars, rfl, by decide⟩, ?_⟩
  intro frames rest hframes _
  rw [hchars, List.cons_append, List.append_assoc, List.singleton_append, readOn_cons rfl]
  show readOn (.object [] :: frames) .firstKey (memberChars members ++ '}' :: rest) = _
  cases h with
  | nil =>
    rw [memberChars, List.nil_append, readOn_cons rfl, ← resume_deliver hframes]
    rfl
  | @cons member document members documents hread hrest =>
    obtain ⟨tail, htail⟩ := exists_memberChars_cons member members
    have hfirst : memberChars (member :: members) ++ '}' :: rest =
        '"' :: (tail ++ '}' :: rest) := by
      rw [htail, List.cons_append]
    rw [hfirst, readOn_firstKey, ← hfirst, readOn_members hframes rest (.cons hread hrest),
      List.reverse_nil, List.nil_append]

/-! ## Texts -/

/-- **A written value is read as its document, and as JSON.** -/
theorem read_text {j : Json} {document : Document} (h : j.ReadsAs document) :
    Document.read j.text = (document, true) := by
  have hread := h.reads [] [] trivial endsNumber_nil
  rw [List.append_nil] at hread
  rw [Document.read, text, String.toList_ofList, hread]
  rfl

end RecordFilter.Json
