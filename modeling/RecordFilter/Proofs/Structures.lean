import Mathlib.Data.List.Nodup
import Mathlib.Data.List.Pairwise
import Mathlib.Data.List.Perm.Basic
import Mathlib.Logic.Relation
import RecordFilter.Json.Structure
import RecordFilter.Proofs.FirstError

/-!
# Structures spelled differently

A structure can be written in many ways: under any names of its members and in any order, with
members that it does not have, with or without those that have a default, or as an array. Which of
them is chosen makes no difference where the members of the structure are independent
(`Shape.Independent`), that is where a key names one of them at most and reading one neither needs
nor hides another. What one entry of an object can do is said once (`EntryRead`); that entries
commute and that a member, once given, stays given follow from it, and then by induction for whole
objects.

`Shape.Respelled.alike`: a document and any respelling of it are read as the same value.
`Shape.Repeats.not_read`: where a member is named twice, nothing is read.
-/

namespace RecordFilter.Json

variable {α π : Type}

/-! ## Documents that are read alike -/

/-- Whatever one document is read as, the other one is, too. They may be refused differently. -/
def Reader.Alike (read : Reader α) (d e : Document) : Prop :=
  ∀ x, read d = .ok x ↔ read e = .ok x

theorem Reader.alike_of_eqvGen {read : Reader α} {R : Document → Document → Prop}
    {d e : Document} (hR : ∀ d e, R d e → read.Alike d e) (h : Relation.EqvGen R d e) :
    read.Alike d e := by
  induction h with
  | rel d e h => exact hR d e h
  | refl d => exact fun _ => Iff.rfl
  | symm d e _ ih => exact fun x => (ih x).symm
  | trans d e f _ _ ihd ihe => exact fun x => (ihd x).trans (ihe x)

theorem readEach_eq_ok_iff {read : Reader α} {documents : List Document} {values : List α} :
    readEach read documents = .ok values ↔
      List.Forall₂ (fun d x => read d = .ok x) documents values := by
  have hmapM : readEach read documents = documents.mapM read := by
    induction documents with
    | nil => rfl
    | cons d documents ih =>
      rw [readEach, ih, List.mapM_cons]
      cases read d with
      | error e => rfl
      | ok x => cases documents.mapM read <;> rfl
  rw [hmapM, mapM_eq_ok_iff]

theorem readList_eq_ok_iff {wanted : String} {read : Reader α} {documents : List Document}
    {closed : Bool} {values : List α} :
    readList wanted read (.array documents closed) = .ok values ↔
      closed = true ∧ List.Forall₂ (fun d x => read d = .ok x) documents values := by
  rw [← readEach_eq_ok_iff, readList]
  cases readEach read documents <;> cases closed <;> simp

/-- Lists are read alike when their elements are. -/
theorem readList_alike {wanted : String} {read : Reader α} {ds es : List Document}
    (h : List.Forall₂ read.Alike ds es) (closed : Bool) :
    (readList wanted read).Alike (.array ds closed) (.array es closed) := by
  intro values
  rw [readList_eq_ok_iff, readList_eq_ok_iff]
  refine and_congr_right fun _ => ?_
  induction h generalizing values with
  | nil => exact Iff.rfl
  | cons hde _ ih =>
    cases values with
    | nil => simp
    | cons x values => rw [List.forall₂_cons, List.forall₂_cons, hde x, ih values]

/-- A list is not read if one of its elements is not. -/
theorem readList_ne_ok {wanted : String} {read : Reader α} {documents : List Document}
    {d : Document} (hd : d ∈ documents) (h : ∀ x, read d ≠ .ok x) (closed : Bool)
    (values : List α) : readList wanted read (.array documents closed) ≠ .ok values := by
  intro hvalues
  obtain ⟨i, hi, rfl⟩ := List.mem_iff_getElem.1 hd
  have hread := (readList_eq_ok_iff.1 hvalues).2
  exact h _ (hread.get hi (hread.length_eq ▸ hi))

/-! ## Independent members -/

/-- An entry of an object: a key, if it could be read, and a document. -/
abbrev Entry := Option String × Document

/-- Whether an entry has a key that names a member. -/
def Member.isNamedBy (m : Member π) (entry : Entry) : Bool := entry.1.any m.answersTo

/-- The keys that name a member. -/
def Member.names (m : Member π) : List String := m.name :: m.otherNames

theorem Member.answersTo_iff {m : Member π} {key : String} :
    m.answersTo key = true ↔ key ∈ m.names := by
  simp [answersTo, names]

theorem Member.answersTo_name (m : Member π) : m.answersTo m.name = true :=
  answersTo_iff.2 List.mem_cons_self

/-- A structure starts without members, a key names one of them at most, and reading one neither
needs nor hides another. -/
structure Shape.Independent (s : Shape π α) : Prop where
  names : (s.members.flatMap Member.names).Nodup
  fresh : ∀ m ∈ s.members, m.isGiven s.start = false
  given : ∀ m ∈ s.members, ∀ {d p q}, m.read d p = .ok q → m.isGiven q = true
  apart : ∀ m ∈ s.members, ∀ n ∈ s.members, m ≠ n → ∀ {d p q}, m.read d p = .ok q →
    n.isGiven q = n.isGiven p ∧
      ∀ {e r}, n.read e q = .ok r → ∃ q', n.read e p = .ok q' ∧ m.read d q' = .ok r

/-- What one entry can do: it gives a member that was not given before, or it is passed over. -/
inductive EntryRead (members : List (Member π)) : π → Entry → π → Prop
  | known {m : Member π} {key : String} {d : Document} {p q : π} (hm : m ∈ members)
      (hkey : m.answersTo key = true) (hfree : m.isGiven p = false) (hread : m.read d p = .ok q) :
    EntryRead members p (some key, d) q
  | unknown {key : String} (hkey : ∀ m ∈ members, m.answersTo key = false) (d : Document) (p : π) :
    EntryRead members p (some key, d) p

namespace Shape

variable {s : Shape π α} {p q r : π} {entries : List Entry}

theorem Independent.eq_of_answersTo (hs : s.Independent) {m n : Member π} (hm : m ∈ s.members)
    (hn : n ∈ s.members) {key : String} (hmkey : m.answersTo key = true)
    (hnkey : n.answersTo key = true) : m = n := by
  by_contra hmn
  have hsymm : Std.Symm (Function.onFun List.Disjoint (@Member.names π)) :=
    ⟨fun _ _ h _ hn hm => h hm hn⟩
  have hdisjoint := (List.nodup_flatMap.1 hs.names).2.forall hm hn hmn
  exact hdisjoint (Member.answersTo_iff.1 hmkey) (Member.answersTo_iff.1 hnkey)

theorem Independent.nodup (hs : s.Independent) : s.members.Nodup := by
  refine (List.nodup_flatMap.1 hs.names).2.imp ?_
  rintro m _ h rfl
  exact h List.mem_cons_self List.mem_cons_self

/-- The member that a key names is found by it. -/
theorem Independent.find (hs : s.Independent) {m : Member π} (hm : m ∈ s.members) {key : String}
    (hkey : m.answersTo key = true) : s.members.find? (·.answersTo key) = some m := by
  have hsome : (s.members.find? (·.answersTo key)).isSome := List.find?_isSome.2 ⟨m, hm, hkey⟩
  obtain ⟨n, hn⟩ := Option.isSome_iff_exists.1 hsome
  have hnkey : n.answersTo key = true := by simpa using List.find?_some hn
  rw [hn, hs.eq_of_answersTo hm (List.mem_of_find?_eq_some hn) hkey hnkey]

/-- Entries are read one after the other. -/
theorem Independent.readMembers_cons_eq_ok_iff (hs : s.Independent) {entry : Entry} :
    readMembers s.members p (entry :: entries) = .ok q ↔
      ∃ r, EntryRead s.members p entry r ∧ readMembers s.members r entries = .ok q := by
  obtain ⟨_ | key, d⟩ := entry
  · constructor
    · intro h
      cases h
    · rintro ⟨r, h, -⟩
      cases h
  rw [readMembers]
  constructor
  · intro h
    split at h
    · next hnone =>
      refine ⟨p, .unknown (fun m hm => ?_) d p, h⟩
      simpa using List.find?_eq_none.1 hnone m hm
    · next m hfind =>
      have hm := List.mem_of_find?_eq_some hfind
      have hkey := List.find?_some hfind
      cases hfree : m.isGiven p with
      | true =>
        rw [hfree, if_pos rfl] at h
        cases h
      | false =>
        rw [hfree, if_neg Bool.false_ne_true] at h
        cases hread : m.read d p with
        | error e =>
          rw [hread] at h
          cases h
        | ok r =>
          rw [hread] at h
          exact ⟨r, .known hm hkey hfree hread, h⟩
  · rintro ⟨r, hentry, h⟩
    cases hentry with
    | known hm hkey hfree hread =>
      simp only [hs.find hm hkey, hfree, hread, Bool.false_eq_true, if_false]
      exact h
    | unknown hkey =>
      have hnone : s.members.find? (·.answersTo key) = none := by
        rw [List.find?_eq_none]
        intro m hm
        simp [hkey m hm]
      simp only [hnone]
      exact h

theorem Independent.readMembers_append_eq_ok_iff (hs : s.Independent) {before after : List Entry} :
    readMembers s.members p (before ++ after) = .ok q ↔
      ∃ r, readMembers s.members p before = .ok r ∧ readMembers s.members r after = .ok q := by
  induction before generalizing p with
  | nil => simp [readMembers]
  | cons entry before ih =>
    rw [List.cons_append, hs.readMembers_cons_eq_ok_iff]
    simp only [ih, hs.readMembers_cons_eq_ok_iff]
    constructor
    · rintro ⟨p', hentry, r, hbefore, hafter⟩
      exact ⟨r, ⟨p', hentry, hbefore⟩, hafter⟩
    · rintro ⟨r, ⟨p', hentry, hbefore⟩, hafter⟩
      exact ⟨p', hentry, r, hbefore, hafter⟩

theorem Independent.readMembers_singleton_eq_ok_iff (hs : s.Independent) {entry : Entry} :
    readMembers s.members p [entry] = .ok q ↔ EntryRead s.members p entry q := by
  rw [hs.readMembers_cons_eq_ok_iff]
  simp [readMembers]

/-! ## What is given -/

/-- After an entry a member is given if it was before or the entry names it. -/
theorem Independent.isGiven_of_entryRead (hs : s.Independent) {entry : Entry}
    (h : EntryRead s.members p entry q) {m : Member π} (hm : m ∈ s.members) :
    m.isGiven q = (m.isGiven p || m.isNamedBy entry) := by
  cases h with
  | @known n key d _ _ hn hkey hfree hread =>
    show m.isGiven q = (m.isGiven p || m.answersTo key)
    by_cases hmn : n = m
    · subst hmn
      rw [hs.given n hm hread, hkey, Bool.or_true]
    · have hother : m.answersTo key = false := by
        by_contra hmkey
        rw [Bool.not_eq_false] at hmkey
        exact hmn (hs.eq_of_answersTo hn hm hkey hmkey)
      rw [(hs.apart n hn m hm hmn hread).1, hother, Bool.or_false]
  | @unknown key hkey d _ =>
    show m.isGiven p = (m.isGiven p || m.answersTo key)
    rw [hkey m hm, Bool.or_false]

/-- After some entries a member is given if it was before or one of them names it. -/
theorem Independent.isGiven_of_readMembers (hs : s.Independent)
    (h : readMembers s.members p entries = .ok q) {m : Member π} (hm : m ∈ s.members) :
    m.isGiven q = (m.isGiven p || entries.any m.isNamedBy) := by
  induction entries generalizing p with
  | nil =>
    cases h
    rw [List.any_nil, Bool.or_false]
  | cons entry entries ih =>
    obtain ⟨r, hentry, hrest⟩ := hs.readMembers_cons_eq_ok_iff.1 h
    rw [ih hrest, hs.isGiven_of_entryRead hentry hm, List.any_cons, Bool.or_assoc]

/-- An entry that can be read names no member that is given already. -/
theorem Independent.isGiven_of_isNamedBy (hs : s.Independent) {entry : Entry}
    (h : EntryRead s.members p entry q) {m : Member π} (hm : m ∈ s.members)
    (hname : m.isNamedBy entry = true) : m.isGiven p = false := by
  cases h with
  | known hn hkey hfree hread =>
    cases hs.eq_of_answersTo hm hn hname hkey
    exact hfree
  | unknown hkey => cases (hkey m hm).symm.trans hname

/-! ## The order of entries -/

theorem Independent.entryRead_swap (hs : s.Independent) {x y : Entry}
    (hx : EntryRead s.members p x r) (hy : EntryRead s.members r y q) :
    ∃ r', EntryRead s.members p y r' ∧ EntryRead s.members r' x q := by
  cases hx with
  | unknown hxkey => exact ⟨q, hy, .unknown hxkey _ q⟩
  | @known m key d _ _ hm hkey hfree hread =>
    cases hy with
    | unknown hykey => exact ⟨p, .unknown hykey _ p, .known hm hkey hfree hread⟩
    | @known n key' e _ _ hn hkey' hfree' hread' =>
      have hmn : m ≠ n := by
        rintro rfl
        cases (hs.given m hm hread).symm.trans hfree'
      obtain ⟨hkeeps, hcommutes⟩ := hs.apart m hm n hn hmn hread
      obtain ⟨r', hr', hq⟩ := hcommutes hread'
      refine ⟨r', .known hn hkey' ?_ hr', .known hm hkey ?_ hq⟩
      · rw [← hkeeps]
        exact hfree'
      · rw [(hs.apart n hn m hm hmn.symm hr').1]
        exact hfree

/-- The order of entries makes no difference. -/
theorem Independent.readMembers_perm (hs : s.Independent) {before after : List Entry}
    (h : before.Perm after) :
    readMembers s.members p before = .ok q ↔ readMembers s.members p after = .ok q := by
  induction h generalizing p with
  | nil => exact Iff.rfl
  | cons entry _ ih =>
    rw [hs.readMembers_cons_eq_ok_iff, hs.readMembers_cons_eq_ok_iff]
    exact exists_congr fun r => and_congr_right fun _ => ih
  | swap x y entries =>
    have hswap : ∀ x y : Entry, readMembers s.members p (x :: y :: entries) = .ok q →
        readMembers s.members p (y :: x :: entries) = .ok q := by
      intro x y h
      obtain ⟨r, hx, h⟩ := hs.readMembers_cons_eq_ok_iff.1 h
      obtain ⟨r', hy, h⟩ := hs.readMembers_cons_eq_ok_iff.1 h
      obtain ⟨r, hy, hx⟩ := hs.entryRead_swap hx hy
      exact hs.readMembers_cons_eq_ok_iff.2 ⟨r, hy, hs.readMembers_cons_eq_ok_iff.2 ⟨r', hx, h⟩⟩
    exact ⟨hswap y x, hswap x y⟩
  | trans _ _ ihbefore ihafter => exact ihbefore.trans ihafter

/-! ## One entry for another -/

/-- An entry may stand for another one that does the same. -/
theorem Independent.readMembers_congr (hs : s.Independent) {x y : Entry}
    (h : ∀ p q, EntryRead s.members p x q ↔ EntryRead s.members p y q)
    (before after : List Entry) :
    readMembers s.members p (before ++ x :: after) = .ok q ↔
      readMembers s.members p (before ++ y :: after) = .ok q := by
  simp only [hs.readMembers_append_eq_ok_iff, hs.readMembers_cons_eq_ok_iff, h]

theorem Independent.entryRead_iff (hs : s.Independent) {m : Member π} (hm : m ∈ s.members)
    {key : String} (hkey : m.answersTo key = true) {d : Document} :
    EntryRead s.members p (some key, d) q ↔ m.isGiven p = false ∧ m.read d p = .ok q := by
  constructor
  · intro h
    cases h with
    | known hn hkey' hfree hread =>
      cases hs.eq_of_answersTo hm hn hkey hkey'
      exact ⟨hfree, hread⟩
    | unknown hnone => cases (hnone m hm).symm.trans hkey
  · rintro ⟨hfree, hread⟩
    exact .known hm hkey hfree hread

/-! ## Arrays -/

/-- Documents as the entries of the first members, under the names of these. -/
def entriesOf (members : List (Member π)) (documents : List Document) : List Entry :=
  List.zipWith (fun m d => (some m.name, d)) members documents

/-- Elements of an array are read as the first members are, as long as there are enough of them. -/
theorem Independent.readElements_eq_ok_iff (hs : s.Independent) {members : List (Member π)}
    (hsub : members ⊆ s.members) (hnodup : members.Nodup)
    (hfree : ∀ m ∈ members, m.isGiven p = false) {documents : List Document}
    (hlength : documents.length ≤ members.length) :
    readElements members p documents = .ok q ↔
      readMembers s.members p (entriesOf members documents) = .ok q := by
  -- The members that are still to come have not been given.
  induction members generalizing p documents with
  | nil =>
    rw [List.length_nil, Nat.le_zero, List.length_eq_zero_iff] at hlength
    subst hlength
    exact Iff.rfl
  | cons m members ih =>
    cases documents with
    | nil => exact Iff.rfl
    | cons d documents =>
      obtain ⟨hm, hsub⟩ := List.cons_subset.1 hsub
      obtain ⟨hnotin, hnodup⟩ := List.nodup_cons.1 hnodup
      obtain ⟨hmfree, hfree⟩ := List.forall_mem_cons.1 hfree
      have hrest : ∀ {r}, m.read d p = .ok r → (readElements members r documents = .ok q ↔
          readMembers s.members r (entriesOf members documents) = .ok q) := by
        intro r hread
        refine ih hsub hnodup (fun n hn => ?_) (Nat.le_of_succ_le_succ hlength)
        have hmn : m ≠ n := by
          rintro rfl
          exact hnotin hn
        rw [(hs.apart m hm n (hsub hn) hmn hread).1]
        exact hfree n hn
      show readElements (m :: members) p (d :: documents) = .ok q ↔
        readMembers s.members p ((some m.name, d) :: entriesOf members documents) = .ok q
      rw [hs.readMembers_cons_eq_ok_iff, readElements]
      simp only [hs.entryRead_iff hm m.answersTo_name, hmfree, true_and]
      cases hread : m.read d p with
      | error e => simp
      | ok r => simpa using hrest hread

/-- An element of an array that is read is read as the member in its place. -/
theorem exists_read_of_readElements {members : List (Member π)} {documents : List Document}
    (h : readElements members p documents = .ok q) {i : Nat} {m : Member π} {d : Document}
    (hm : members[i]? = some m) (hd : documents[i]? = some d) : ∃ p q, m.read d p = .ok q := by
  induction documents generalizing members p i with
  | nil => cases hd
  | cons first documents ih =>
    cases members with
    | nil => cases hm
    | cons m' members =>
      rw [readElements] at h
      cases hread : m'.read first p with
      | error e =>
        rw [hread] at h
        cases h
      | ok r =>
        rw [hread] at h
        cases i with
        | zero =>
          cases hm
          cases hd
          exact ⟨p, r, hread⟩
        | succ i => exact ih h hm hd

/-! ## Whole structures -/

theorem read_object_eq_ok_iff {closed : Bool} {x : α} :
    s.read (.object entries closed) = .ok x ↔
      closed = true ∧ ∃ q, readMembers s.members s.start entries = .ok q ∧ s.finish q = .ok x := by
  rw [read]
  cases readMembers s.members s.start entries with
  | error e => simp
  | ok q => cases closed <;> cases hfinish : s.finish q <;> simp [Except.mapError, hfinish]

theorem read_array_eq_ok_iff {documents : List Document} {closed : Bool} {x : α} :
    s.read (.array documents closed) = .ok x ↔
      closed = true ∧ ∃ q, readElements s.members s.start documents = .ok q ∧
        s.finish q = .ok x := by
  rw [read]
  cases readElements s.members s.start documents with
  | error e => simp
  | ok q => cases closed <;> cases hfinish : s.finish q <;> simp [Except.mapError, hfinish]

theorem alike_of_readMembers {before after : List Entry} (h : ∀ q,
      readMembers s.members s.start before = .ok q ↔
        readMembers s.members s.start after = .ok q) (closed : Bool) :
    Reader.Alike s.read (.object before closed) (.object after closed) := by
  intro x
  rw [read_object_eq_ok_iff, read_object_eq_ok_iff]
  simp only [h]

/-- A document that may be left out: giving it for a member changes nothing in the end. -/
def Omissible (s : Shape π α) (m : Member π) (d : Document) : Prop :=
  ∀ p, m.isGiven p = false → ∃ q, m.read d p = .ok q ∧ s.finish q = s.finish p

/-- What a member that is not named is read from may be written out. -/
theorem Independent.alike_of_omissible (hs : s.Independent) {m : Member π} (hm : m ∈ s.members)
    {key : String} (hkey : m.answersTo key = true) {d : Document} (hd : s.Omissible m d)
    (habsent : ∀ entry ∈ entries, m.isNamedBy entry = false) (closed : Bool) :
    Reader.Alike s.read (.object entries closed) (.object ((some key, d) :: entries) closed) := by
  have hfree : ∀ {q}, readMembers s.members s.start entries = .ok q → m.isGiven q = false := by
    intro q h
    rw [hs.isGiven_of_readMembers h hm, hs.fresh m hm, Bool.false_or, List.any_eq_false]
    intro entry hentry
    rw [habsent entry hentry]
    exact Bool.false_ne_true
  intro x
  rw [read_object_eq_ok_iff, read_object_eq_ok_iff]
  refine and_congr_right fun _ => ?_
  -- The new entry may just as well be read last, when the member is known to be missing.
  have hlast : ∀ r, readMembers s.members s.start ((some key, d) :: entries) = .ok r ↔
      ∃ q, readMembers s.members s.start entries = .ok q ∧ m.read d q = .ok r := by
    intro r
    rw [hs.readMembers_perm (List.perm_append_singleton (some key, d) entries).symm,
      hs.readMembers_append_eq_ok_iff]
    refine exists_congr fun q => and_congr_right fun hq => ?_
    rw [hs.readMembers_singleton_eq_ok_iff, hs.entryRead_iff hm hkey]
    simp [hfree hq]
  simp only [hlast]
  constructor
  · rintro ⟨q, hq, hfinish⟩
    obtain ⟨r, hread, hsame⟩ := hd q (hfree hq)
    exact ⟨r, ⟨q, hq, hread⟩, hsame.trans hfinish⟩
  · rintro ⟨r, ⟨q, hq, hread⟩, hfinish⟩
    obtain ⟨r', hread', hsame⟩ := hd q (hfree hq)
    cases hread.symm.trans hread'
    exact ⟨q, hq, hsame.symm.trans hfinish⟩

theorem Independent.alike_array (hs : s.Independent) {documents : List Document}
    (hlength : documents.length ≤ s.members.length) (closed : Bool) :
    Reader.Alike s.read (.object (entriesOf s.members documents) closed)
      (.array documents closed) := by
  intro x
  rw [read_object_eq_ok_iff, read_array_eq_ok_iff]
  simp only [hs.readElements_eq_ok_iff (List.Subset.refl _) hs.nodup hs.fresh hlength]

/-! ## Respellings -/

/-- One change of how a structure is written. Some documents may be left out for some members, and
some may be written differently inside. -/
inductive Edit (s : Shape π α) (omitted : Member π → Document → Prop)
    (inner : Member π → Document → Document → Prop) : Document → Document → Prop
  /-- A member goes by another of its names. -/
  | rename {m : Member π} {key key' : String} (hm : m ∈ s.members) (hkey : m.answersTo key = true)
      (hkey' : m.answersTo key' = true) (d : Document) (before after : List Entry) (closed : Bool) :
    Edit s omitted inner (.object (before ++ (some key, d) :: after) closed)
      (.object (before ++ (some key', d) :: after) closed)
  /-- The members stand in another order. -/
  | permute {before after : List Entry} (h : before.Perm after) (closed : Bool) :
    Edit s omitted inner (.object before closed) (.object after closed)
  /-- There is something that the structure does not have. -/
  | unknown {key : String} (hkey : ∀ m ∈ s.members, m.answersTo key = false) (d : Document)
      (before after : List Entry) (closed : Bool) :
    Edit s omitted inner (.object (before ++ after) closed)
      (.object (before ++ (some key, d) :: after) closed)
  /-- A member that is left out is written out. -/
  | writeOut {m : Member π} {key : String} {d : Document} {entries : List Entry}
      (hm : m ∈ s.members) (hkey : m.answersTo key = true) (hd : omitted m d)
      (habsent : ∀ entry ∈ entries, m.isNamedBy entry = false) (closed : Bool) :
    Edit s omitted inner (.object entries closed) (.object ((some key, d) :: entries) closed)
  /-- The first members, in their order and under their names, are written as an array. -/
  | array (documents : List Document) (hlength : documents.length ≤ s.members.length)
      (closed : Bool) :
    Edit s omitted inner (.object (entriesOf s.members documents) closed)
      (.array documents closed)
  /-- A member is written differently inside. -/
  | inside {m : Member π} {key : String} {d e : Document} (hm : m ∈ s.members)
      (hkey : m.answersTo key = true) (h : inner m d e) (before after : List Entry)
      (closed : Bool) :
    Edit s omitted inner (.object (before ++ (some key, d) :: after) closed)
      (.object (before ++ (some key, e) :: after) closed)

/-- A structure is written in two ways: one comes from the other by changes there and back. -/
def Respelled (s : Shape π α) (omitted : Member π → Document → Prop)
    (inner : Member π → Document → Document → Prop) : Document → Document → Prop :=
  Relation.EqvGen (s.Edit omitted inner)

section Respelling

variable {omitted : Member π → Document → Prop} {inner : Member π → Document → Document → Prop}
  {d e : Document}

/-- No single change makes a difference. -/
theorem Edit.alike (hs : s.Independent) (homitted : ∀ m d, omitted m d → s.Omissible m d)
    (hinner : ∀ m d e, inner m d e → ∀ p q, m.read d p = .ok q ↔ m.read e p = .ok q)
    (h : s.Edit omitted inner d e) : Reader.Alike s.read d e := by
  cases h with
  | rename hm hkey hkey' d before after closed =>
    refine alike_of_readMembers (fun q => hs.readMembers_congr (fun p q => ?_) before after) closed
    rw [hs.entryRead_iff hm hkey, hs.entryRead_iff hm hkey']
  | permute h closed => exact alike_of_readMembers (fun q => hs.readMembers_perm h) closed
  | @unknown key hkey d before after closed =>
    refine alike_of_readMembers (fun q => ?_) closed
    rw [hs.readMembers_append_eq_ok_iff, hs.readMembers_append_eq_ok_iff]
    refine exists_congr fun r => and_congr_right fun _ => ?_
    rw [hs.readMembers_cons_eq_ok_iff]
    constructor
    · intro h
      exact ⟨r, .unknown hkey d r, h⟩
    · rintro ⟨r', hentry, h⟩
      cases hentry with
      | known hm hkey' => cases (hkey _ hm).symm.trans hkey'
      | unknown => exact h
  | writeOut hm hkey hd habsent closed =>
    exact hs.alike_of_omissible hm hkey (homitted _ _ hd) habsent closed
  | array documents hlength closed => exact hs.alike_array hlength closed
  | inside hm hkey h before after closed =>
    refine alike_of_readMembers (fun q => hs.readMembers_congr (fun p q => ?_) before after) closed
    rw [hs.entryRead_iff hm hkey, hs.entryRead_iff hm hkey, hinner _ _ _ h]

/-- **The spelling of a structure makes no difference.** -/
theorem Respelled.alike (hs : s.Independent) (homitted : ∀ m d, omitted m d → s.Omissible m d)
    (hinner : ∀ m d e, inner m d e → ∀ p q, m.read d p = .ok q ↔ m.read e p = .ok q)
    (h : s.Respelled omitted inner d e) : Reader.Alike s.read d e :=
  Reader.alike_of_eqvGen (fun _ _ hedit => hedit.alike hs homitted hinner) h

end Respelling

/-! ## Repeated members -/

/-- An object names one of its members twice, or there is such an object further inside. -/
inductive Repeats (s : Shape π α) (inner : Member π → Document → Prop) : Document → Prop
  | here {m : Member π} {x y : Entry} (hm : m ∈ s.members) (hx : m.isNamedBy x = true)
      (hy : m.isNamedBy y = true) (before between after : List Entry) (closed : Bool) :
    Repeats s inner (.object (before ++ x :: (between ++ y :: after)) closed)
  | member {m : Member π} {key : String} {d : Document} (hm : m ∈ s.members)
      (hkey : m.answersTo key = true) (h : inner m d) (before after : List Entry) (closed : Bool) :
    Repeats s inner (.object (before ++ (some key, d) :: after) closed)
  | element {m : Member π} {d : Document} {documents : List Document} {i : Nat}
      (hm : s.members[i]? = some m) (hd : documents[i]? = some d) (h : inner m d) (closed : Bool) :
    Repeats s inner (.array documents closed)

/-- **A member that is named twice is refused**, and so is all around it. -/
theorem Repeats.not_read {inner : Member π → Document → Prop} {d : Document}
    (hs : s.Independent) (hinner : ∀ m d, inner m d → ∀ p q, m.read d p ≠ .ok q)
    (h : s.Repeats inner d) (x : α) : s.read d ≠ .ok x := by
  intro hread
  cases h with
  | @here m first second hm hx hy before between after closed =>
    obtain ⟨-, q, h, -⟩ := read_object_eq_ok_iff.1 hread
    obtain ⟨p, -, h⟩ := hs.readMembers_append_eq_ok_iff.1 h
    obtain ⟨r, hfirst, h⟩ := hs.readMembers_cons_eq_ok_iff.1 h
    obtain ⟨r', hbetween, h⟩ := hs.readMembers_append_eq_ok_iff.1 h
    obtain ⟨_, hsecond, -⟩ := hs.readMembers_cons_eq_ok_iff.1 h
    -- What the first entry gave is still there when the second one would give it again.
    have hgiven : m.isGiven r' = true := by
      rw [hs.isGiven_of_readMembers hbetween hm, hs.isGiven_of_entryRead hfirst hm, hx,
        Bool.or_true, Bool.true_or]
    cases hgiven.symm.trans (hs.isGiven_of_isNamedBy hsecond hm hy)
  | member hm hkey hd before after closed =>
    obtain ⟨-, q, h, -⟩ := read_object_eq_ok_iff.1 hread
    obtain ⟨p, -, h⟩ := hs.readMembers_append_eq_ok_iff.1 h
    obtain ⟨r, hentry, -⟩ := hs.readMembers_cons_eq_ok_iff.1 h
    exact hinner _ _ hd _ _ ((hs.entryRead_iff hm hkey).1 hentry).2
  | element hm hd hin closed =>
    obtain ⟨-, q, h, -⟩ := read_array_eq_ok_iff.1 hread
    obtain ⟨p, r, h⟩ := exists_read_of_readElements h hm hd
    exact hinner _ _ hin _ _ h

end Shape

end RecordFilter.Json
