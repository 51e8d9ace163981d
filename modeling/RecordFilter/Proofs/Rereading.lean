import RecordFilter.Proofs.JsonText
import RecordFilter.Request.Writing

/-!
# Requests written and read back

The text of a request denotes a request with the same groups and clauses, operators and combinators.
Paths are what their dotted text denotes. A literal that JSON has no form for is read as another
one: an enum member as a string, a special float as null, and a whole number beyond 64 bits as the
float nearest to it (`Literal.reread`). `ofText_text` says so of every request, and that a request
is read back as it was exactly when none of this happens.

That a finite float is read back from its text, and a large whole number as the nearest float, is
not always so, since numbers are read with two roundings. It is taken for granted of the literals
at hand (`Literal.ReadsBack`).
-/

namespace RecordFilter

open Json (Document Reader Member Shape FitsWord)

/-! ## What a request becomes -/

namespace Literal

/-- What the text of a literal denotes. -/
def reread : Literal → Literal
  | int value => if FitsWord value.val then int value else float (.ofInt value.val)
  | float value => if value.isFinite then float value else null
  | enum member => str member
  | other => other

/-- A float is finite, and a whole number fits in 64 bits. -/
def IsInRange : Literal → Prop
  | int value => FitsWord value.val
  | float value => value.isFinite = true
  | _ => True

/-- A number whose text JSON reads as a float is read as the right one. -/
def ReadsBack : Literal → Prop
  | int value =>
    ¬ FitsWord value.val → (Json.Number.int value.val).ReadsAs (.float (.ofInt value.val))
  | float value => value.isFinite = true → (Json.Number.float value).ReadsAs (.float value)
  | _ => True

instance (literal : Literal) : Decidable literal.IsInRange :=
  match literal with
  | int value => inferInstanceAs (Decidable (FitsWord value.val))
  | float value => inferInstanceAs (Decidable (value.isFinite = true))
  | null | str _ | bool _ | enum _ => .isTrue trivial

instance (literal : Literal) : Decidable literal.ReadsBack :=
  match literal with
  | int value => inferInstanceAs (Decidable (¬ FitsWord value.val → Json.Number.ReadsAs _ _))
  | float value => inferInstanceAs (Decidable (value.isFinite = true → Json.Number.ReadsAs _ _))
  | null | str _ | bool _ | enum _ => .isTrue trivial

/-- A literal is read back as it was when it is in range and no enum member. -/
theorem reread_eq_iff (literal : Literal) :
    literal.reread = literal ↔ literal.IsInRange ∧ ∀ member, literal ≠ enum member := by
  cases literal with
  | int value => by_cases h : FitsWord value.val <;> simp [reread, IsInRange, h]
  | float value => cases h : value.isFinite <;> simp [reread, IsInRange, h]
  | null | str | bool | enum => simp [reread, IsInRange]

end Literal

/-- The clause that the text of a clause denotes. -/
def Clause.reread (c : Clause) : Clause :=
  ⟨.ofText c.path.text, c.operator, c.literal.reread, c.combinator⟩

@[simp] theorem Clause.reread_operator (c : Clause) : c.reread.operator = c.operator := by
  rw [reread]

@[simp] theorem Clause.reread_literal (c : Clause) : c.reread.literal = c.literal.reread := by
  rw [reread]

@[simp] theorem Clause.reread_combinator (c : Clause) : c.reread.combinator = c.combinator := by
  rw [reread]

def Group.reread (g : Group) : Group := ⟨g.clauses.map Clause.reread, g.combinator⟩

def Request.reread (x : Request) : Request := ⟨x.groups.map Group.reread⟩

theorem Clause.reread_eq_iff (c : Clause) :
    c.reread = c ↔ Path.ofText c.path.text = c.path ∧
      c.literal.IsInRange ∧ ∀ member, c.literal ≠ .enum member := by
  obtain ⟨path, operator, literal, combinator⟩ := c
  simp [reread, Literal.reread_eq_iff]

theorem map_eq_self_iff {α : Type} {f : α → α} {l : List α} :
    l.map f = l ↔ ∀ a ∈ l, f a = a := by
  have h := List.map_eq_map_iff (f := f) (g := id) (l := l)
  rwa [List.map_id] at h

/-- A request is read back as it was when each of its clauses is. -/
theorem Request.reread_eq_iff (x : Request) :
    x.reread = x ↔ ∀ g ∈ x.groups, ∀ c ∈ g.clauses, c.reread = c := by
  have hgroup (g : Group) : g.reread = g ↔ ∀ c ∈ g.clauses, c.reread = c := by
    obtain ⟨clauses, combinator⟩ := g
    simp only [Group.reread, Group.mk.injEq, and_true, map_eq_self_iff]
  obtain ⟨groups⟩ := x
  simp only [reread, Request.mk.injEq, map_eq_self_iff, hgroup]

/-! ## Reading what was written -/

namespace Json

/-- The text of a value is read as `a`. -/
def Reads {α : Type} (read : Reader α) (j : Json) (a : α) : Prop :=
  ∃ document, j.ReadsAs document ∧ read document = .ok a

variable {α β : Type} {read : Reader α}

theorem Reads.ofText {j : Json} {a : α} (h : Reads read j a) :
    Reader.ofText read j.text = .ok a := by
  obtain ⟨document, hdocument, hread⟩ := h
  rw [Reader.ofText, read_text hdocument]
  simp only [hread, if_true]

/-- Elements that are read one by one are read as a list. -/
theorem reads_list (wanted : String) {toJson : β → Json} {f : β → α} {l : List β}
    (h : ∀ b ∈ l, Reads read (toJson b) (f b)) :
    Reads (readList wanted read) (.array (l.map toJson)) (l.map f) := by
  have hparts : ∃ documents, List.Forall₂ ReadsAs (l.map toJson) documents ∧
      readEach read documents = .ok (l.map f) := by
    induction l with
    | nil => exact ⟨[], .nil, rfl⟩
    | cons b l ih =>
      obtain ⟨hb, hl⟩ := List.forall_mem_cons.1 h
      obtain ⟨document, hdocument, hread⟩ := hb
      obtain ⟨documents, hdocuments, hreads⟩ := ih hl
      refine ⟨document :: documents, .cons hdocument hdocuments, ?_⟩
      simp only [readEach, hread, hreads, List.map_cons]
  obtain ⟨documents, hdocuments, hreads⟩ := hparts
  refine ⟨_, readsAs_array hdocuments, ?_⟩
  simp only [readList, hreads, if_true]

theorem Reads.map {j : Json} {a : α} (h : Reads read j a) (f : α → β) :
    Reads (fun document => (read document).map f) j (f a) := by
  obtain ⟨document, hdocument, hread⟩ := h
  exact ⟨document, hdocument, map_eq_ok_iff.2 ⟨a, hread, rfl⟩⟩

/-- Members that are read one after the other, none of them twice, from the parts of a structure
that were there before to those that are there in the end. -/
inductive MembersRead {π : Type} (members : List (Member π)) :
    π → List (String × Json) → π → Prop
  | nil (parts : π) : MembersRead members parts [] parts
  | cons {m : Member π} {parts next last : π} {key : String} {value : Json}
      {rest : List (String × Json)} :
    members.find? (·.answersTo key) = some m → m.isGiven parts = false →
      Reads (m.read · parts) value next → MembersRead members next rest last →
      MembersRead members parts ((key, value) :: rest) last

theorem MembersRead.exists_documents {π : Type} {members : List (Member π)} {parts last : π}
    {written : List (String × Json)} (h : MembersRead members parts written last) :
    ∃ documents, List.Forall₂ MemberReadsAs written documents ∧
      readMembers members parts documents = .ok last := by
  induction h with
  | nil parts => exact ⟨[], .nil, rfl⟩
  | @cons m parts next last key value rest hfind hnew hvalue _ ih =>
    obtain ⟨document, hdocument, hread⟩ := hvalue
    obtain ⟨documents, hdocuments, hreads⟩ := ih
    refine ⟨(some key, document) :: documents, .cons ⟨rfl, hdocument⟩ hdocuments, ?_⟩
    simp only [readMembers, hfind, hnew, hread, hreads, Bool.false_eq_true, if_false]

/-- An object is read as a structure when its members are. -/
theorem reads_object {π : Type} (s : Shape π α) {written : List (String × Json)} {last : π} {a : α}
    (h : MembersRead s.members s.start written last) (hfinish : s.finish last = .ok a) :
    Reads s.read (.object written) a := by
  obtain ⟨documents, hdocuments, hreads⟩ := h.exists_documents
  refine ⟨_, readsAs_object hdocuments, ?_⟩
  simp only [Shape.read, hreads, if_true, hfinish]
  rfl

end Json

open Json (Reads)

theorem Operator.reads (operator : Operator) : Reads ofDocument operator.toJson operator := by
  refine ⟨_, Json.readsAs_string operator.name, ?_⟩
  cases operator <;> rfl

theorem Combinator.reads (combinator : Combinator) :
    Reads ofDocument combinator.toJson combinator := by
  refine ⟨_, Json.readsAs_string combinator.name, ?_⟩
  cases combinator <;> rfl

theorem Path.reads (path : Path) : Reads ofDocument path.toJson (ofText path.text) :=
  ⟨_, Json.readsAs_string path.text, rfl⟩

theorem Literal.reads {literal : Literal} (h : literal.ReadsBack) :
    Reads ofDocument literal.toJson literal.reread := by
  cases literal with
  | null => exact ⟨_, Json.readsAs_null, rfl⟩
  | bool value => exact ⟨_, Json.readsAs_bool value, rfl⟩
  | str text => exact ⟨_, Json.readsAs_string text, rfl⟩
  | enum member => exact ⟨_, Json.readsAs_string member, rfl⟩
  | int value =>
    by_cases hfits : FitsWord value.val
    · refine ⟨_, Json.readsAs_number (Json.Number.readsAs_int hfits), ?_⟩
      simp only [ofDocument, ofNumber, Int128.ofInt?_val, reread, if_pos hfits]
    · refine ⟨_, Json.readsAs_number (h hfits), ?_⟩
      simp only [ofDocument, ofNumber, reread, if_neg hfits]
  | float value =>
    cases hfinite : value.isFinite with
    | true =>
      refine ⟨_, Json.readsAs_number (h hfinite), ?_⟩
      simp only [ofDocument, ofNumber, reread, hfinite, if_true]
    | false =>
      refine ⟨_, Json.readsAs_special hfinite, ?_⟩
      simp only [ofDocument, reread, hfinite, Bool.false_eq_true, if_false]

theorem Clause.reads {c : Clause} (h : c.literal.ReadsBack) :
    Reads ofDocument c.toJson c.reread := by
  have hmembers : Json.MembersRead shape.members shape.start
      [(pathMember.name, c.path.toJson), (operatorMember.name, c.operator.toJson),
        (valueMember.name, c.literal.toJson), (combinatorMember.name, c.combinator.toJson)]
      ⟨some (.ofText c.path.text), some c.operator, some c.literal.reread, some c.combinator⟩ :=
    .cons (m := pathMember) rfl rfl (c.path.reads.map _) <|
      .cons (m := operatorMember) rfl rfl (c.operator.reads.map _) <|
      .cons (m := valueMember) rfl rfl ((Literal.reads h).map _) <|
      .cons (m := combinatorMember) rfl rfl (c.combinator.reads.map _) (.nil _)
  exact Json.reads_object shape hmembers rfl

theorem Group.reads {g : Group} (h : ∀ c ∈ g.clauses, c.literal.ReadsBack) :
    Reads ofDocument g.toJson g.reread := by
  have hclauses := Json.reads_list "a sequence" fun c hc => Clause.reads (h c hc)
  have hmembers : Json.MembersRead shape.members shape.start
      [(clausesMember.name, .array (g.clauses.map Clause.toJson)),
        (combinatorMember.name, g.combinator.toJson)]
      ⟨some (g.clauses.map Clause.reread), some g.combinator⟩ :=
    .cons (m := clausesMember) rfl rfl (hclauses.map _) <|
      .cons (m := combinatorMember) rfl rfl (g.combinator.reads.map _) (.nil _)
  exact Json.reads_object shape hmembers rfl

theorem Request.reads {x : Request} (h : ∀ g ∈ x.groups, ∀ c ∈ g.clauses, c.literal.ReadsBack) :
    Reads ofDocument x.toJson x.reread := by
  have hgroups := Json.reads_list "a sequence" fun g hg => Group.reads (h g hg)
  have hmembers : Json.MembersRead shape.members shape.start
      [(groupsMember.name, .array (x.groups.map Group.toJson))]
      (some (x.groups.map Group.reread)) :=
    .cons (m := groupsMember) rfl rfl (hgroups.map _) (.nil _)
  exact Json.reads_object shape hmembers rfl

/-- **Requests read back.** The text of a request denotes the request with each path and each
literal read again, which is the same request exactly when no path and no literal changes. -/
theorem ofText_text (x : Request) (h : ∀ g ∈ x.groups, ∀ c ∈ g.clauses, c.literal.ReadsBack) :
    Request.ofText x.text = .ok x.reread ∧
      (x.reread = x ↔ ∀ g ∈ x.groups, ∀ c ∈ g.clauses,
        Path.ofText c.path.text = c.path ∧
          c.literal.IsInRange ∧ ∀ member, c.literal ≠ .enum member) := by
  refine ⟨(Request.reads h).ofText, ?_⟩
  rw [Request.reread_eq_iff]
  simp only [Clause.reread_eq_iff]

/-- A request with literals of all kinds, and with a path that has a dot in a segment. -/
def mixedRequest : Request := ⟨[
  ⟨[⟨.ofSegments ["address", "zip.code"], .startsWith, .str "a \"b\"\n", .or⟩,
    ⟨.ofSegments [], .equal, .null, .and⟩], .and⟩,
  ⟨[⟨.ofText "tier", .notEqual, .enum "Gold", .and⟩,
    ⟨.ofText "price", .greater, .float (.nearest false Binary64.one 10), .and⟩,
    ⟨.ofText "price", .contains, .float .nan, .or⟩,
    ⟨.ofText "quantity", .less, .int ⟨18446744073709551616, by decide, by decide⟩, .and⟩,
    ⟨.ofText "quantity", .lessOrEqual, .int ⟨-5, by decide, by decide⟩, .or⟩,
    ⟨.ofText "vip", .endsWith, .bool true, .and⟩], .or⟩]⟩

theorem ofText_text_mixedRequest :
    (∀ g ∈ mixedRequest.groups, ∀ c ∈ g.clauses, c.literal.ReadsBack) ∧
      Request.ofText mixedRequest.text = .ok mixedRequest.reread ∧
      mixedRequest.reread ≠ mixedRequest := by
  have h : ∀ g ∈ mixedRequest.groups, ∀ c ∈ g.clauses, c.literal.ReadsBack := by decide +kernel
  obtain ⟨hread, hsame⟩ := ofText_text mixedRequest h
  refine ⟨h, hread, fun heq => ?_⟩
  -- The second group starts with an enum member.
  have hgroup : mixedRequest.groups[1] ∈ mixedRequest.groups := List.getElem_mem _
  exact (hsame.1 heq _ hgroup _ List.mem_cons_self).2.2 "Gold" rfl

end RecordFilter
