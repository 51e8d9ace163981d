import Mathlib.Data.List.Nodup
import RecordFilter.Proofs.Transmission
import RecordFilter.Proofs.TwoRuns

/-!
# Paths spelled differently

Fields are found by names without regard to case, and if need be without regard to underscores.
Where no two fields of a record type are told apart by these alone, a segment and any respelling of
it find the same field, and from there on only the declared name is used. So two requests whose
paths are respellings of each other have their clauses placed alike, cut into the same runs, and
compiled to the same condition; and when they are refused, it is for the same reason, except that an
unknown field is reported as it was spelled.

`compile_respelled` says so of requests.
-/

namespace RecordFilter

variable {ρ : Type} {catalog : Catalog ρ} {root : ρ}

/-! ## Segments -/

/-- Two segments, neither of them blank, are equal when ASCII case and underscores are ignored. -/
structure Text.Respelled (a b : String) : Prop where
  left : a ≠ ""
  right : b ≠ ""
  similar : Text.similarName a b = true

instance (a b : String) : Decidable (Text.Respelled a b) :=
  decidable_of_iff (a ≠ "" ∧ b ≠ "" ∧ Text.similarName a b = true)
    ⟨fun h => ⟨h.1, h.2.1, h.2.2⟩, fun h => ⟨h.left, h.right, h.similar⟩⟩

/-- The fields of a record type have names that differ even without ASCII case and underscores. So
at most one of them consists of underscores only. -/
def RecordType.DistinctNames (r : RecordType ρ) : Prop :=
  (r.fields.map fun f => Text.looseKey f.name).Nodup

instance (r : RecordType ρ) : Decidable r.DistinctNames := by
  unfold RecordType.DistinctNames
  infer_instance

namespace RecordType

variable {r : RecordType ρ} {segment : String} {f : Field ρ}

theorem DistinctNames.eq_of_similarName (hr : r.DistinctNames) {f g : Field ρ} (hf : f ∈ r.fields)
    (hg : g ∈ r.fields) (h : Text.similarName f.name g.name = true) : f = g :=
  List.inj_on_of_nodup_map hr hf hg (Text.similarName_iff.1 h)

/-- A field that is similar to a segment is found, be it by the first look or by the second. -/
theorem isSome_find?_of_similarName (hs : segment ≠ "") (hf : f ∈ r.fields)
    (h : Text.similarName f.name segment = true) : (r.find? segment).isSome := by
  unfold find?
  rw [if_neg (by simpa using hs)]
  split
  · rfl
  · rw [List.find?_isSome]
    exact ⟨f, hf, h⟩

/-- With distinct names, a segment names the one field that it is similar to. -/
theorem DistinctNames.find?_eq_some_iff (hr : r.DistinctNames) (hs : segment ≠ "") :
    r.find? segment = some f ↔ f ∈ r.fields ∧ Text.similarName f.name segment = true := by
  constructor
  · intro h
    exact ⟨mem_of_find? h, similarName_of_find? h⟩
  · rintro ⟨hf, h⟩
    obtain ⟨g, hg⟩ := Option.isSome_iff_exists.1 (isSome_find?_of_similarName hs hf h)
    have hsimilar : Text.similarName f.name g.name = true := by
      rw [Text.similarName_iff] at h ⊢
      rw [h, Text.similarName_iff.1 (similarName_of_find? hg)]
    rw [hg, hr.eq_of_similarName hf (mem_of_find? hg) hsimilar]

theorem DistinctNames.find?_eq_of_respelled (hr : r.DistinctNames) {a b : String}
    (h : Text.Respelled a b) : r.find? a = r.find? b := by
  ext f
  rw [hr.find?_eq_some_iff h.left, hr.find?_eq_some_iff h.right, Text.similarName_iff,
    Text.similarName_iff, Text.similarName_iff.1 h.similar]

end RecordType

/-! ## Paths -/

/-- Two paths have as many segments, and corresponding ones are respellings of each other. -/
def Path.Respelled (p q : Path) : Prop := List.Forall₂ Text.Respelled p.segments q.segments

instance (p q : Path) : Decidable (p.Respelled q) :=
  inferInstanceAs (Decidable (List.Forall₂ Text.Respelled p.segments q.segments))

theorem Path.Respelled.isNaming_eq {p q : Path} (h : p.Respelled q) : p.isNaming = q.isNaming := by
  have hblank : p.blankSegment? = none ∧ q.blankSegment? = none := by
    unfold Respelled at h
    unfold blankSegment?
    generalize p.segments = as at h ⊢
    generalize q.segments = bs at h ⊢
    induction h with
    | nil => exact ⟨rfl, rfl⟩
    | cons hab _ ih =>
      simp [List.findIdx?_cons, String.isEmpty_iff, hab.left, hab.right, ih.1, ih.2]
  have hempty : p.isEmpty = q.isEmpty := by
    unfold Path.isEmpty
    rw [Bool.eq_iff_iff, List.isEmpty_iff_length_eq_zero, List.isEmpty_iff_length_eq_zero,
      h.length_eq]
  rw [isNaming, isNaming, hblank.1, hblank.2, hempty]

/-- Two errors are the same, but that an unknown field may be spelled differently. -/
inductive FilterError.SameButSegment : FilterError → FilterError → Prop
  | same (e : FilterError) : SameButSegment e e
  | segment {a b : String} (h : Text.Respelled a b) (typeName : String) :
    SameButSegment (.unknownField a typeName) (.unknownField b typeName)

namespace Catalog

/-- Every record type that can be reached has fields with distinct names. -/
def DistinctNames (catalog : Catalog ρ) (root : ρ) : Prop :=
  ∀ reference, catalog.Reaches root reference → (catalog reference).DistinctNames

/-- Respelled segments are followed alike, through the same fields. -/
theorem DistinctNames.follow_follows (hnames : catalog.DistinctNames root)
    {segments segments' : List String} (h : List.Forall₂ Text.Respelled segments segments')
    {type : FieldType ρ}
    (htype : ∀ reference, type.innermost.record? = some reference →
      catalog.Reaches root reference) :
    Follows (fun _ => False) FilterError.SameButSegment (· = ·) (catalog.follow segments type)
      (catalog.follow segments' type) := by
  induction h generalizing type with
  | nil => exact .refl .same (fun _ => rfl) _
  | @cons a b segments segments' hab _ ih =>
    rw [follow, follow]
    split
    · exact .error (.segment hab _)
    · next reference hreference =>
      have hreaches := htype reference hreference
      rw [(hnames reference hreaches).find?_eq_of_respelled hab]
      split
      · exact .error (.segment hab _)
      · next field hfield =>
        have hrest : Follows (fun _ => False) FilterError.SameButSegment (· = ·)
            (catalog.follow segments field.type) (catalog.follow segments' field.type) :=
          ih fun next hnext => hreaches.field (RecordType.mem_of_find? hfield) hnext
        generalize catalog.follow segments field.type = x at hrest
        generalize catalog.follow segments' field.type = y at hrest
        cases hrest with
        | ok hinner => exact .ok (by rw [hinner])
        | error he => exact .error he
        | excused he => exact he.elim

theorem DistinctNames.resolve_follows (hnames : catalog.DistinctNames root) (maxDepth : Nat)
    {p q : Path} (h : p.Respelled q) :
    Follows (fun _ => False) FilterError.SameButSegment (· = ·)
      (catalog.resolve maxDepth (.record root) p) (catalog.resolve maxDepth (.record root) q) := by
  unfold resolve Path.validate
  rw [h.isNaming_eq]
  split
  · exact .error (.same _)
  · rw [show p.length = q.length from h.length_eq]
    split
    · exact .error (.same _)
    · refine hnames.follow_follows h fun reference hreference => ?_
      cases hreference
      exact .root

end Catalog

/-! ## Runs -/

theorem exists_runs_eq_cons (p : Placed ρ) (clauses : List (Placed ρ)) :
    ∃ run rest, runs (p :: clauses) = run :: rest :=
  List.exists_cons_of_ne_nil (List.splitBy_ne_nil.2 (List.cons_ne_nil p clauses))

/-- Clauses that are placed alike are cut into runs alike. -/
theorem forall₂_runs {P : Path → Path → Prop} {ps qs : List (Placed ρ)}
    (h : List.Forall₂ (PlacedAlike P) ps qs) :
    List.Forall₂ (List.Forall₂ (PlacedAlike P)) (runs ps) (runs qs) := by
  induction h with
  | nil => exact .nil
  | @cons p q ps qs hpq hrest ih =>
    cases hrest with
    | nil => exact .cons (.cons hpq .nil) .nil
    | @cons p' q' ps qs hpq' hrest =>
      have hcollection : p.2.sameCollection p'.2 = q.2.sameCollection q'.2 := by
        rw [hpq.2, hpq'.2]
      cases hs : p.2.sameCollection p'.2 with
      | true =>
        obtain ⟨run, more, hp⟩ := exists_runs_eq_cons p' ps
        obtain ⟨run', more', hq⟩ := exists_runs_eq_cons q' qs
        rw [hp, hq] at ih
        obtain _ | ⟨hrun, hmore⟩ := ih
        rw [runs_cons_of_same hs hp, runs_cons_of_same (hcollection ▸ hs) hq]
        exact .cons (.cons hpq hrun) hmore
      | false =>
        have hnot : ∀ r ∈ (p' :: ps).head?, p.2.sameCollection r.2 = false := by
          intro r hr
          cases hr
          exact hs
        have hnot' : ∀ r ∈ (q' :: qs).head?, q.2.sameCollection r.2 = false := by
          intro r hr
          cases hr
          exact hcollection ▸ hs
        rw [runs_cons_of_not hnot, runs_cons_of_not hnot']
        exact .cons (.cons hpq .nil) ih

/-! ## Requests -/

/-- **Spelling does not matter.** Where fields have distinct names, two requests whose paths are
respellings of each other compile to the same condition, or are refused with the same error but for
the segment that is unknown. Where the clauses of a group can be placed, those of the other group
are placed alike: they are cut into the same runs, and make the same blocks at every depth. -/
theorem compile_respelled {limits : Limits} {x y : Request} (hnames : catalog.DistinctNames root)
    (h : x.SameBut Path.Respelled y) :
    ((∃ condition, x.compile catalog root limits = .ok condition ∧
        y.compile catalog root limits = .ok condition) ∨
      ∃ e e', x.compile catalog root limits = .error e ∧
        y.compile catalog root limits = .error e' ∧ e.SameButSegment e') ∧
    ∀ groups ∈ x.groups.zip y.groups, ∀ clauses,
      groups.1.place catalog root limits.maxPathDepth = .ok clauses →
      ∃ clauses', groups.2.place catalog root limits.maxPathDepth = .ok clauses' ∧
        List.Forall₂ (List.Forall₂ fun p q => p.2 = q.2) (runs clauses) (runs clauses') ∧
        Block.ofClauses clauses = Block.ofClauses clauses' := by
  have hpaths : ∀ p q, Path.Respelled p q → Follows (fun _ => False) FilterError.SameButSegment
      (· = ·) (catalog.resolve limits.maxPathDepth (.record root) p)
        (catalog.resolve limits.maxPathDepth (.record root) q) :=
    fun p q hpq => hnames.resolve_follows _ hpq
  constructor
  · by_cases hle : x.clauseCount ≤ limits.maxClauses
    · have hfollows := Request.compile_follows .same hpaths h hle (h.clauseCount_eq ▸ hle)
      refine hfollows.ok_or_error.imp ?_ id
      rintro ⟨condition, _, hx, hy, rfl⟩
      exact ⟨condition, hx, hy⟩
    · rw [Nat.not_le] at hle
      rw [Request.compile_of_lt hle, Request.compile_of_lt (h.clauseCount_eq ▸ hle)]
      exact .inr ⟨_, _, rfl, rfl, .same _⟩
  · intro groups hgroups clauses hplace
    have hgroup := (List.forall₂_iff_zip.1 h).2 hgroups
    rcases (Group.place_follows hpaths hgroup).ok_or_error with ⟨_, clauses', hx, hy, halike⟩ | hno
    · cases hplace.symm.trans hx
      refine ⟨clauses', hy, ?_, Block.ofClauses_congr halike⟩
      exact (forall₂_runs halike).imp fun run run' hruns => hruns.imp fun p q hpq => hpq.2
    · obtain ⟨e, _, hx, -, -⟩ := hno
      cases hplace.symm.trans hx

/-- Orders with an item that is a lamp and sold more than twice, in two spellings. -/
def spelledRequest (orders items : String) : Request := ⟨[⟨[
  ⟨.ofSegments [orders, items, "sku"], .contains, .str "lamp", .and⟩,
  ⟨.ofSegments ["orders", "items", "quantity"], .greater, .str "2", .and⟩,
  ⟨.ofSegments ["address", "ZipCode"], .equal, .null, .or⟩], .and⟩]⟩

/-- Both clauses share the items of an order, however these are spelled. -/
theorem compile_respelled_spelledRequest :
    ∃ condition, (spelledRequest "Orders" "I_tems").compile Sample.catalog .customer .standard =
        .ok condition ∧
      (spelledRequest "_orders" "ITEMS_").compile Sample.catalog .customer .standard =
        .ok condition := by
  have hnames : Sample.catalog.DistinctNames .customer := by
    intro reference _
    cases reference <;> decide +kernel
  have hsame : (spelledRequest "Orders" "I_tems").SameBut Path.Respelled
      (spelledRequest "_orders" "ITEMS_") := by
    refine .cons ⟨.cons ⟨?_, rfl, rfl, rfl⟩ (.cons ⟨?_, rfl, rfl, rfl⟩
      (.cons ⟨?_, rfl, rfl, rfl⟩ .nil)), rfl⟩ .nil
    all_goals decide +kernel
  obtain ⟨condition, h, -⟩ := exists_ok_of_any
    (show ((spelledRequest "Orders" "I_tems").compile Sample.catalog .customer
      .standard).toOption.any (fun _ => true) = true by decide +kernel)
  rcases (compile_respelled hnames hsame).1 with ⟨condition', hx, hy⟩ | ⟨e, _, hx, -, -⟩
  · exact ⟨condition', hx, hy⟩
  · cases h.symm.trans hx

end RecordFilter
