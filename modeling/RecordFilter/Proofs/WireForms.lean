import RecordFilter.Proofs.JsonText
import RecordFilter.Proofs.Structures
import RecordFilter.Request.Reading

/-!
# The ways to write a request

Clauses, groups and requests are structures with independent members, and each member but the path
and the operator of a clause has a default that may be left out. So it makes no difference in which
of its ways a request is written, at any of the three levels, while naming a member twice is always
refused.

`ofText_spelledFreely` says so of the texts of clauses, groups and requests.
-/

namespace RecordFilter

open Json (Document Reader Member Shape)

namespace Json

variable {α π : Type}

/-! ## Texts -/

theorem Reader.ofText_eq_ok_iff {read : Reader α} {text : String} {x : α} :
    Reader.ofText read text = .ok x ↔
      read (Document.read text).1 = .ok x ∧ (Document.read text).2 = true := by
  unfold ofText
  cases hread : read (Document.read text).1 with
  | error e => simp [hread]
  | ok y => cases hjson : (Document.read text).2 <;> simp [hread, hjson]

theorem Reader.ofText_eq_ok_iff_of_read {read : Reader α} {text : String} {document : Document}
    (h : Document.read text = (document, true)) {x : α} :
    Reader.ofText read text = .ok x ↔ read document = .ok x := by
  rw [ofText_eq_ok_iff, h]
  exact and_iff_left rfl

/-- It makes no difference to a reader in which of several ways a JSON text is written, and it
refuses every text in which a member is repeated. -/
structure Reader.SpelledFreely (read : Reader α) (Respelled : Document → Document → Prop)
    (Repeats : Document → Prop) : Prop where
  same : ∀ text text' x, Reader.ofText read text = .ok x → (Document.read text').2 = true →
    Respelled (Document.read text).1 (Document.read text').1 → Reader.ofText read text' = .ok x
  refused : ∀ text, Repeats (Document.read text).1 → ∃ error, Reader.ofText read text = .error error

theorem Reader.SpelledFreely.of_documents {read : Reader α}
    {Respelled : Document → Document → Prop} {Repeats : Document → Prop}
    (halike : ∀ d e, Respelled d e → read.Alike d e)
    (hrefused : ∀ d, Repeats d → ∀ x, read d ≠ .ok x) : read.SpelledFreely Respelled Repeats where
  same := by
    intro text text' x h hjson hrespelled
    rw [ofText_eq_ok_iff] at h ⊢
    exact ⟨(halike _ _ hrespelled x).1 h.1, hjson⟩
  refused := by
    intro text hrepeats
    rw [← not_ok_iff_error]
    rintro ⟨x, h⟩
    exact hrefused _ hrepeats x (ofText_eq_ok_iff.1 h).1

/-! ## Members that hold lists -/

/-- The elements of the list in a member are related one by one. -/
inductive Elementwise (m : Member π) (R : Document → Document → Prop) :
    Member π → Document → Document → Prop
  | intro {ds es : List Document} (h : List.Forall₂ R ds es) (closed : Bool) :
    Elementwise m R m (.array ds closed) (.array es closed)

/-- Some element of the list in a member has a property. -/
inductive SomeElement (m : Member π) (P : Document → Prop) : Member π → Document → Prop
  | intro {ds : List Document} {d : Document} (hd : d ∈ ds) (h : P d) (closed : Bool) :
    SomeElement m P m (.array ds closed)

variable {m : Member π} {read : Reader α} {wanted : String} {f : List α → π → π}

theorem Elementwise.read_iff (hm : ∀ d p, m.read d p = (readList wanted read d).map (f · p))
    {R : Document → Document → Prop} (hR : ∀ d e, R d e → read.Alike d e) {n : Member π}
    {d e : Document} (h : Elementwise m R n d e) (p q : π) :
    n.read d p = .ok q ↔ n.read e p = .ok q := by
  cases h with
  | intro hlist closed =>
    rw [hm, hm, map_eq_ok_iff, map_eq_ok_iff]
    exact exists_congr fun values => and_congr_left fun _ =>
      readList_alike (hlist.imp hR) closed values

theorem SomeElement.not_read (hm : ∀ d p, m.read d p = (readList wanted read d).map (f · p))
    {P : Document → Prop} (hP : ∀ d, P d → ∀ x, read d ≠ .ok x) {n : Member π} {d : Document}
    (h : SomeElement m P n d) (p q : π) : n.read d p ≠ .ok q := by
  cases h with
  | intro hd h closed =>
    rw [hm]
    intro hread
    obtain ⟨values, hvalues, -⟩ := map_eq_ok_iff.1 hread
    exact readList_ne_ok hd (hP _ h) closed values hvalues

end Json

/-! ## Clauses -/

namespace Clause

theorem mem_members {m : Member Parts} :
    m ∈ shape.members ↔
      m = pathMember ∨ m = operatorMember ∨ m = valueMember ∨ m = combinatorMember := by
  simp [shape]

theorem shape_independent : shape.Independent where
  names := by decide
  fresh := by decide
  given := by
    intro m hm d p q h
    rcases mem_members.1 hm with rfl | rfl | rfl | rfl
    all_goals
      obtain ⟨x, -, rfl⟩ := map_eq_ok_iff.1 h
      rfl
  apart := by
    intro m hm n hn hmn d p q h
    rcases mem_members.1 hm with rfl | rfl | rfl | rfl
    all_goals
      obtain ⟨x, hx, rfl⟩ := map_eq_ok_iff.1 h
      rcases mem_members.1 hn with rfl | rfl | rfl | rfl
      all_goals first
        | exact absurd rfl hmn
        | refine ⟨rfl, fun he => ?_⟩
          obtain ⟨y, hy, rfl⟩ := map_eq_ok_iff.1 he
          exact ⟨_, map_eq_ok_iff.2 ⟨y, hy, rfl⟩, map_eq_ok_iff.2 ⟨x, hx, rfl⟩⟩

/-- A clause without a value asks for null, and one without a combinator is joined by `And`. -/
inductive Omitted : Member Parts → Document → Prop
  | value : Omitted valueMember .null
  | combinator {d : Document} (h : Combinator.ofDocument d = .ok .and) : Omitted combinatorMember d

theorem Omitted.omissible {m : Member Parts} {d : Document} (h : Omitted m d) :
    shape.Omissible m d := by
  rintro ⟨path, operator, literal, combinator⟩ hfree
  cases h with
  | value =>
    refine ⟨⟨path, operator, some .null, combinator⟩, rfl, ?_⟩
    obtain rfl : literal = none := by simpa [valueMember] using hfree
    rfl
  | combinator h =>
    refine ⟨⟨path, operator, literal, some .and⟩, map_eq_ok_iff.2 ⟨_, h, rfl⟩, ?_⟩
    obtain rfl : combinator = none := by simpa [combinatorMember] using hfree
    rfl

/-- Two ways to write a clause. -/
def Respelled : Document → Document → Prop := shape.Respelled Omitted fun _ _ _ => False

/-- A clause with a repeated member. -/
def Repeats : Document → Prop := shape.Repeats fun _ _ => False

theorem Respelled.alike {d e : Document} (h : Respelled d e) : Reader.Alike ofDocument d e :=
  Shape.Respelled.alike shape_independent (fun _ _ h => h.omissible) (fun _ _ _ h => h.elim) h

theorem Repeats.not_read {d : Document} (h : Repeats d) (c : Clause) : ofDocument d ≠ .ok c :=
  Shape.Repeats.not_read shape_independent (fun _ _ h => h.elim) h c

end Clause

/-! ## Groups -/

namespace Group

theorem mem_members {m : Member Parts} :
    m ∈ shape.members ↔ m = clausesMember ∨ m = combinatorMember := by
  simp [shape]

theorem shape_independent : shape.Independent where
  names := by decide
  fresh := by decide
  given := by
    intro m hm d p q h
    rcases mem_members.1 hm with rfl | rfl
    all_goals
      obtain ⟨x, -, rfl⟩ := map_eq_ok_iff.1 h
      rfl
  apart := by
    intro m hm n hn hmn d p q h
    rcases mem_members.1 hm with rfl | rfl
    all_goals
      obtain ⟨x, hx, rfl⟩ := map_eq_ok_iff.1 h
      rcases mem_members.1 hn with rfl | rfl
      all_goals first
        | exact absurd rfl hmn
        | refine ⟨rfl, fun he => ?_⟩
          obtain ⟨y, hy, rfl⟩ := map_eq_ok_iff.1 he
          exact ⟨_, map_eq_ok_iff.2 ⟨y, hy, rfl⟩, map_eq_ok_iff.2 ⟨x, hx, rfl⟩⟩

/-- A group may go without clauses, and without a combinator it is joined by `And`. -/
inductive Omitted : Member Parts → Document → Prop
  | clauses : Omitted clausesMember (.array [] true)
  | combinator {d : Document} (h : Combinator.ofDocument d = .ok .and) : Omitted combinatorMember d

theorem Omitted.omissible {m : Member Parts} {d : Document} (h : Omitted m d) :
    shape.Omissible m d := by
  rintro ⟨clauses, combinator⟩ hfree
  cases h with
  | clauses =>
    refine ⟨⟨some [], combinator⟩, rfl, ?_⟩
    obtain rfl : clauses = none := by simpa [clausesMember] using hfree
    rfl
  | combinator h =>
    refine ⟨⟨clauses, some .and⟩, map_eq_ok_iff.2 ⟨_, h, rfl⟩, ?_⟩
    obtain rfl : combinator = none := by simpa [combinatorMember] using hfree
    rfl

/-- Two ways to write a group. -/
def Respelled : Document → Document → Prop :=
  shape.Respelled Omitted (Json.Elementwise clausesMember Clause.Respelled)

/-- A group with a repeated member, its own or one of its clauses'. -/
def Repeats : Document → Prop := shape.Repeats (Json.SomeElement clausesMember Clause.Repeats)

theorem Respelled.alike {d e : Document} (h : Respelled d e) : Reader.Alike ofDocument d e :=
  Shape.Respelled.alike shape_independent (fun _ _ h => h.omissible)
    (fun _ _ _ h => h.read_iff (fun _ _ => rfl) fun _ _ => Clause.Respelled.alike) h

theorem Repeats.not_read {d : Document} (h : Repeats d) (g : Group) : ofDocument d ≠ .ok g :=
  Shape.Repeats.not_read shape_independent
    (fun _ _ h => h.not_read (fun _ _ => rfl) fun _ => Clause.Repeats.not_read) h g

end Group

/-! ## Requests -/

namespace Request

theorem mem_members {m : Member (Option (List Group))} :
    m ∈ shape.members ↔ m = groupsMember := by
  simp [shape]

theorem shape_independent : shape.Independent where
  names := by decide
  fresh := by decide
  given := by
    intro m hm d p q h
    cases mem_members.1 hm
    obtain ⟨x, -, rfl⟩ := map_eq_ok_iff.1 h
    rfl
  apart := by
    intro m hm n hn hmn
    exact absurd ((mem_members.1 hm).trans (mem_members.1 hn).symm) hmn

/-- A request may go without groups. -/
inductive Omitted : Member (Option (List Group)) → Document → Prop
  | groups : Omitted groupsMember (.array [] true)

theorem Omitted.omissible {m : Member (Option (List Group))} {d : Document} (h : Omitted m d) :
    shape.Omissible m d := by
  intro groups hfree
  cases h
  refine ⟨some [], rfl, ?_⟩
  obtain rfl : groups = none := by simpa [groupsMember] using hfree
  rfl

/-- Two ways to write a request. -/
def Respelled : Document → Document → Prop :=
  shape.Respelled Omitted (Json.Elementwise groupsMember Group.Respelled)

/-- A request with a repeated member, at any level. -/
def Repeats : Document → Prop := shape.Repeats (Json.SomeElement groupsMember Group.Repeats)

theorem Respelled.alike {d e : Document} (h : Respelled d e) : Reader.Alike ofDocument d e :=
  Shape.Respelled.alike shape_independent (fun _ _ h => h.omissible)
    (fun _ _ _ h => h.read_iff (f := fun x _ => some x) (fun _ _ => rfl) fun _ _ =>
      Group.Respelled.alike) h

theorem Repeats.not_read {d : Document} (h : Repeats d) (x : Request) : ofDocument d ≠ .ok x :=
  Shape.Repeats.not_read shape_independent
    (fun _ _ h => h.not_read (f := fun x _ => some x) (fun _ _ => rfl) fun _ =>
      Group.Repeats.not_read) h x

end Request

/-- **A request may be written in any way.** What a text denotes, be it of a clause, a group or a
request, does not depend on how it is written, and no text that names a member twice denotes
anything. -/
theorem ofText_spelledFreely :
    Reader.SpelledFreely Clause.ofDocument Clause.Respelled Clause.Repeats ∧
      Reader.SpelledFreely Group.ofDocument Group.Respelled Group.Repeats ∧
      Reader.SpelledFreely Request.ofDocument Request.Respelled Request.Repeats :=
  ⟨.of_documents (fun _ _ => Clause.Respelled.alike) fun _ => Clause.Repeats.not_read,
    .of_documents (fun _ _ => Group.Respelled.alike) fun _ => Group.Repeats.not_read,
    .of_documents (fun _ _ => Request.Respelled.alike) fun _ => Request.Repeats.not_read⟩

/-- A clause whose members are strings. -/
def clauseJson (members : List (String × String)) : Json :=
  .object (members.map fun m => (m.1, .string m.2))

def clauseDocument (members : List (String × String)) : Document :=
  .object (members.map fun m => (some m.1, .string m.2)) true

/-- A request of one clause, with no more around it than has to be. -/
def plainJson (clause : Json) : Json :=
  .object [("filterGroups", .array [.object [("filters", .array [clause])]])]

def plainDocument (clause : Document) : Document :=
  .object [(some "filterGroups", .array [.object [(some "filters", .array [clause] true)] true]
    true)] true

/-- A request of one clause, with its group as an array, and with a note. -/
def notedJson (clause : Json) : Json :=
  .object [("note", .object [("by", .null)]),
    ("filterGroups", .array [.array [.array [clause], .string "And"]])]

def notedDocument (clause : Document) : Document :=
  .object [(some "note", .object [(some "by", .null)] true),
    (some "filterGroups", .array [.array [.array [clause] true, .string "And"] true] true)] true

theorem readsAs_clauseJson (members : List (String × String)) :
    (clauseJson members).ReadsAs (clauseDocument members) := by
  refine Json.readsAs_object ?_
  rw [List.forall₂_map_left_iff, List.forall₂_map_right_iff]
  exact List.forall₂_same.2 fun m _ => ⟨rfl, Json.readsAs_string m.2⟩

theorem readsAs_plainJson {clause : Json} {d : Document} (h : clause.ReadsAs d) :
    (plainJson clause).ReadsAs (plainDocument d) := by
  have hgroup : (Json.object [("filters", .array [clause])]).ReadsAs
      (.object [(some "filters", .array [d] true)] true) :=
    Json.readsAs_object (.cons ⟨rfl, Json.readsAs_array (.cons h .nil)⟩ .nil)
  exact Json.readsAs_object (.cons ⟨rfl, Json.readsAs_array (.cons hgroup .nil)⟩ .nil)

theorem readsAs_notedJson {clause : Json} {d : Document} (h : clause.ReadsAs d) :
    (notedJson clause).ReadsAs (notedDocument d) := by
  have hnote : (Json.object [("by", .null)]).ReadsAs (.object [(some "by", .null)] true) :=
    Json.readsAs_object (.cons ⟨rfl, Json.readsAs_null⟩ .nil)
  have hgroup : (Json.array [.array [clause], .string "And"]).ReadsAs
      (.array [.array [d] true, .string "And"] true) :=
    Json.readsAs_array (.cons (Json.readsAs_array (.cons h .nil))
      (.cons (Json.readsAs_string "And") .nil))
  exact Json.readsAs_object (.cons ⟨rfl, hnote⟩
    (.cons ⟨rfl, Json.readsAs_array (.cons hgroup .nil)⟩ .nil))

/-- The members are reordered, the path goes by another name, and the combinator is written out. -/
theorem Clause.respelled_fieldName (path operator value : String) :
    Respelled
      (clauseDocument [("field", path), ("operator", operator), ("value", value)])
      (clauseDocument
        [("andOr", "And"), ("operator", operator), ("fieldName", path), ("value", value)]) := by
  have hfield : pathMember.answersTo "field" = true := by decide
  have hfieldName : pathMember.answersTo "fieldName" = true := by decide
  have handOr : combinatorMember.answersTo "andOr" = true := by decide
  refine .trans _ _ _ (.rel _ _ (.permute (.swap _ _ _) true)) ?_
  refine .trans _ _ _ (.rel _ _ (.rename (mem_members.2 (.inl rfl)) hfield hfieldName _
    [(some "operator", .string operator)] _ true)) ?_
  refine .rel _ _ (.writeOut (mem_members.2 (.inr (.inr (.inr rfl)))) handOr
    (.combinator rfl) ?_ true)
  refine List.forall_mem_cons.2 ⟨rfl, List.forall_mem_cons.2 ⟨rfl, ?_⟩⟩
  exact List.forall_mem_singleton.2 rfl

/-- The group is written as an array behind a note. -/
theorem Request.respelled_notedDocument {d e : Document} (h : Clause.Respelled d e) :
    Respelled (plainDocument d) (notedDocument e) := by
  have hgroup : Group.Respelled (.object [(some "filters", .array [d] true)] true)
      (.array [.array [e] true, .string "And"] true) := by
    refine .trans _ _ _ (.rel _ _ (.inside (Group.mem_members.2 (.inl rfl)) (by decide)
      (.intro (.cons h .nil) true) [] [] true)) ?_
    refine .trans _ _ _ (.rel _ _ (.writeOut (Group.mem_members.2 (.inr rfl))
      Group.combinatorMember.answersTo_name (.combinator (d := .string "And") rfl)
      (List.forall_mem_singleton.2 rfl) true)) ?_
    refine .trans _ _ _ (.rel _ _ (.permute (.swap _ _ _) true)) ?_
    exact .rel _ _ (.array (s := Group.shape) [.array [e] true, .string "And"]
      (Nat.le_refl 2) true)
  refine .trans _ _ _ (.rel _ _ (.inside (mem_members.2 rfl) (by decide)
    (.intro (.cons hgroup .nil) true) [] [] true)) ?_
  exact .rel _ _ (.unknown (by decide) _ [] _ true)

/-- Open orders, asked for in two ways, and a clause that has two paths. -/
theorem ofText_spelledFreely_openOrders :
    (∃ x,
      Request.ofText (plainJson (clauseJson
        [("field", "Orders.State"), ("operator", "Equal"), ("value", "Open")])).text = .ok x ∧
      Request.ofText (notedJson (clauseJson
        [("andOr", "And"), ("operator", "Equal"), ("fieldName", "Orders.State"),
          ("value", "Open")])).text = .ok x) ∧
    ∃ error,
      Request.ofText (plainJson (clauseJson
        [("field", "Orders.State"), ("operator", "Equal"), ("key", "Returns.State")])).text =
          .error error := by
  obtain ⟨-, -, hrequest⟩ := ofText_spelledFreely
  constructor
  · have hplain := Json.read_text (readsAs_plainJson (readsAs_clauseJson
      [("field", "Orders.State"), ("operator", "Equal"), ("value", "Open")]))
    have hnoted := Json.read_text (readsAs_notedJson (readsAs_clauseJson
      [("andOr", "And"), ("operator", "Equal"), ("fieldName", "Orders.State"),
        ("value", "Open")]))
    have hread : Request.ofText (plainJson (clauseJson
          [("field", "Orders.State"), ("operator", "Equal"), ("value", "Open")])).text =
        .ok ⟨[⟨[⟨.ofText "Orders.State", .equal, .str "Open", .and⟩], .and⟩]⟩ := by
      rw [Request.ofText, Reader.ofText_eq_ok_iff, hplain]
      exact ⟨rfl, rfl⟩
    refine ⟨_, hread, hrequest.same _ _ _ hread ?_ ?_⟩
    · rw [hnoted]
    · rw [hplain, hnoted]
      exact Request.respelled_notedDocument (Clause.respelled_fieldName _ _ _)
  · refine hrequest.refused _ ?_
    rw [Json.read_text (readsAs_plainJson (readsAs_clauseJson _))]
    have hclause : Clause.Repeats (clauseDocument
        [("field", "Orders.State"), ("operator", "Equal"), ("key", "Returns.State")]) :=
      .here (Clause.mem_members.2 (.inl rfl)) (by decide) (by decide) []
        [(some "operator", .string "Equal")] [] true
    have hgroup : Group.Repeats (.object [(some "filters", .array
        [clauseDocument [("field", "Orders.State"), ("operator", "Equal"),
          ("key", "Returns.State")]] true)] true) :=
      .member (Group.mem_members.2 (.inl rfl)) (by decide)
        (.intro List.mem_cons_self hclause true) [] [] true
    exact .member (Request.mem_members.2 rfl) (by decide)
      (.intro List.mem_cons_self hgroup true) [] [] true

end RecordFilter
