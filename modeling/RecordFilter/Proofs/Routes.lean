import Mathlib.Data.List.Basic
import RecordFilter.Proofs.Following
import RecordFilter.Samples

/-!
# Routes through types

A path leads from a type along a route: it enters the elements of every collection that it meets,
and on a record, nullable or not, it spends a segment to go through the field that the segment
names. `Catalog.Leads` says so step by step, without resolving anything.

1. `follow_in_parts`: a path is followed by following its first part and then, from the leaf of
   that, the rest. So it is refused as one of its parts is, and whatever stands in front of a path
   that can be followed can be followed itself.
2. `resolve_outcome`: resolving a path has the outcome that its route gives. The path is refused if
   it names nothing, if it is too long, or for the first segment that has no field where the ones
   before it lead; otherwise it resolves to the fields and collections of its route.
-/

namespace RecordFilter

variable {ρ : Type} {catalog : Catalog ρ}

/-! ## Stages of a resolved path -/

namespace Resolved

/-- The stages of a resolved path: each chain with the type behind it, which is the type of the
elements of a collection or, at the end, the type of the leaf. -/
def stages : Resolved ρ → List (List String × FieldType ρ)
  | leaf chain type => [(chain, type)]
  | within chain element inner => (chain, element) :: inner.stages

/-- The names of the fields that a resolved path goes through, whatever collections lie between. -/
def names (r : Resolved ρ) : List String := r.stages.flatMap Prod.fst

theorem names_behind (name : String) (r : Resolved ρ) :
    (r.behind name).names = name :: r.names := by
  cases r <;> rfl

theorem exists_stages_eq_cons (r : Resolved ρ) : ∃ stage rest, r.stages = stage :: rest := by
  cases r <;> exact ⟨_, _, rfl⟩

theorem stages_behind {name : String} {r : Resolved ρ} {chain : List String} {type : FieldType ρ}
    {rest : List (List String × FieldType ρ)} (h : r.stages = (chain, type) :: rest) :
    (r.behind name).stages = (name :: chain, type) :: rest := by
  cases r <;> cases h <;> rfl

/-- Going on from the leaf, the chain to the leaf is put in front of the first chain from there. -/
theorem stages_andThen (r : Resolved ρ) {next : Resolved ρ} {chain : List String}
    {type : FieldType ρ} {rest : List (List String × FieldType ρ)}
    (h : next.stages = (chain, type) :: rest) :
    ∃ before last, r.stages = before ++ [(last, r.leafType)] ∧
      (r.andThen next).stages = before ++ (last ++ chain, type) :: rest := by
  induction r with
  | leaf last leafType =>
    refine ⟨[], last, rfl, ?_⟩
    show (last.foldr behind next).stages = (last ++ chain, type) :: rest
    induction last with
    | nil => exact h
    | cons name last ih => exact stages_behind ih
  | within first element inner ih =>
    obtain ⟨before, last, hinner, hnext⟩ := ih
    refine ⟨(first, element) :: before, last, ?_, ?_⟩
    · rw [stages, hinner]
      rfl
    · rw [andThen, stages, hnext]
      rfl

/-- Whether a stage goes straight into the elements of the collections that the one before it has
for elements. -/
def Straight (before next : List String × FieldType ρ) : Prop :=
  ∀ element, before.2.element? = some element → next = ([], element)

theorem isChain_stages_behind {name : String} {r : Resolved ρ}
    (h : r.stages.IsChain Straight) : (r.behind name).stages.IsChain Straight := by
  cases r with
  | leaf chain type => exact .singleton _
  | within chain element inner =>
    cases hinner : inner.stages with
    | nil => cases inner <;> cases hinner
    | cons stage rest =>
      rw [stages, hinner, List.isChain_cons_cons] at h
      rw [behind, stages, hinner, List.isChain_cons_cons]
      exact h

end Resolved

/-! ## Following a path in parts -/

namespace Catalog

/-- A path that cannot be followed is refused alike, whatever comes after it. -/
theorem follow_append_of_error {before : List String} {type : FieldType ρ} {e : FilterError}
    (h : catalog.follow before type = .error e) (after : List String) :
    catalog.follow (before ++ after) type = .error e := by
  induction before, type using follow_induction with
  | element segments type element he ih =>
    rw [follow_of_element? _ he, map_eq_error_iff] at h ⊢
    exact ih h
  | leaf type he =>
    rw [follow_nil he] at h
    cases h
  | segment segment segments type he ih =>
    rw [List.cons_append]
    cases hf : catalog.next? type segment with
    | none =>
      rw [follow_cons_of_none _ he hf] at h ⊢
      exact h
    | some field =>
      rw [follow_cons _ he hf, map_eq_error_iff] at h ⊢
      exact ih field.type h

theorem follow_append_eq (type : FieldType ρ) (before after : List String) :
    catalog.follow (before ++ after) type =
      catalog.follow before type >>= fun r => (catalog.follow after r.leafType).map r.andThen := by
  cases h : catalog.follow before type with
  | ok r => exact follow_append h after
  | error e => exact follow_append_of_error h after

theorem exists_follow_of_append {before after : List String} {type : FieldType ρ} {r : Resolved ρ}
    (h : catalog.follow (before ++ after) type = .ok r) :
    ∃ first, catalog.follow before type = .ok first := by
  rw [follow_append_eq] at h
  obtain ⟨first, hfirst, -⟩ := bind_eq_ok_iff.1 h
  exact ⟨first, hfirst⟩

end Catalog

/-! ## Paths that can be resolved -/

theorem Path.isNaming_iff {path : Path} :
    path.isNaming = true ↔ path.segments ≠ [] ∧ "" ∉ path.segments := by
  have hblank : path.blankSegment? = none ↔ "" ∉ path.segments := by
    rw [blankSegment?, List.findIdx?_eq_none_iff]
    simp only [String.isEmpty_eq_false_iff]
    exact ⟨fun h hmem => h _ hmem rfl, fun h s hs hempty => h (hempty ▸ hs)⟩
  rw [isNaming, Bool.and_eq_true, Option.isNone_iff_eq_none, hblank, Bool.not_eq_true', isEmpty,
    List.isEmpty_eq_false_iff]

namespace Catalog

theorem resolve_of_not_naming {maxDepth : Nat} {root : FieldType ρ} {path : Path}
    (h : path.segments = [] ∨ "" ∈ path.segments) :
    catalog.resolve maxDepth root path = .error (.unknownField "" (root.name catalog)) := by
  have hnaming : ¬ path.isNaming = true := by
    rw [Path.isNaming_iff]
    tauto
  rw [resolve, Path.validate, if_neg hnaming]

theorem resolve_of_lt {maxDepth : Nat} {root : FieldType ρ} {path : Path}
    (h : path.segments ≠ [] ∧ "" ∉ path.segments) (hlong : maxDepth < path.length) :
    catalog.resolve maxDepth root path = .error (.limitExceeded .pathDepth maxDepth) := by
  rw [resolve, Path.validate, if_pos (Path.isNaming_iff.2 h)]
  exact if_pos hlong

theorem resolve_of_le {maxDepth : Nat} {root : FieldType ρ} {path : Path}
    (h : path.segments ≠ [] ∧ "" ∉ path.segments) (hshort : path.length ≤ maxDepth) :
    catalog.resolve maxDepth root path = catalog.follow path.segments root := by
  rw [resolve, Path.validate, if_pos (Path.isNaming_iff.2 h)]
  exact if_neg (Nat.not_lt.2 hshort)

/-- A path that resolves names something and is not too long. -/
theorem naming_of_resolve {maxDepth : Nat} {root : FieldType ρ} {path : Path} {r : Resolved ρ}
    (h : catalog.resolve maxDepth root path = .ok r) :
    (path.segments ≠ [] ∧ "" ∉ path.segments) ∧ path.length ≤ maxDepth := by
  by_cases hnaming : path.segments = [] ∨ "" ∈ path.segments
  · rw [resolve_of_not_naming hnaming] at h
    cases h
  · rw [not_or] at hnaming
    refine ⟨hnaming, Nat.not_lt.1 fun hlong => ?_⟩
    rw [resolve_of_lt hnaming hlong] at h
    cases h

/-- **Paths are followed in parts.** Following a path is following its first part, from any type,
and then from the leaf of that the rest: the outcome is the first part's error, or else the rest's
error, or else the first part with its leaf replaced by the rest. There the chain to the leaf is
put in front of the first chain of the rest, and all other stages stay as they are. So whatever
stands in front of a path that can be followed can be followed, and whatever stands in front of a
path that resolves resolves, unless it is empty. -/
theorem follow_in_parts (catalog : Catalog ρ) (type : FieldType ρ) (before after : List String) :
    (catalog.follow (before ++ after) type =
      catalog.follow before type >>= fun r =>
        (catalog.follow after r.leafType).map r.andThen) ∧
    (∀ r next : Resolved ρ, ∃ front last chain leaf rest,
      r.stages = front ++ [(last, r.leafType)] ∧ next.stages = (chain, leaf) :: rest ∧
        (r.andThen next).stages = front ++ (last ++ chain, leaf) :: rest) ∧
    (∀ r, catalog.follow (before ++ after) type = .ok r →
      ∃ first, catalog.follow before type = .ok first) ∧
    ∀ maxDepth (path front : Path) r, path.segments = before ++ after → front.segments = before →
      before ≠ [] → catalog.resolve maxDepth type path = .ok r →
      ∃ first, catalog.resolve maxDepth type front = .ok first := by
  refine ⟨follow_append_eq type before after, ?_, fun r => exists_follow_of_append, ?_⟩
  · intro r next
    obtain ⟨⟨chain, leaf⟩, rest, hnext⟩ := next.exists_stages_eq_cons
    obtain ⟨front, last, hr, hboth⟩ := r.stages_andThen hnext
    exact ⟨front, last, chain, leaf, rest, hr, hnext, hboth⟩
  · intro maxDepth path front r hpath hfront hne hr
    obtain ⟨hnaming, hshort⟩ := naming_of_resolve hr
    have hfollow := follow_of_resolve hr
    rw [hpath] at hfollow hnaming
    obtain ⟨first, hfirst⟩ := exists_follow_of_append hfollow
    refine ⟨first, ?_⟩
    rw [resolve_of_le, hfront, hfirst]
    · rw [hfront]
      exact ⟨hne, fun hblank => hnaming.2 (List.mem_append_left _ hblank)⟩
    · rw [Path.length, hpath, List.length_append] at hshort
      rw [Path.length, hfront]
      omega

end Catalog

/-- The weights of the children of what comes after the children of a tree. -/
def cousinPath : Path := .ofText "Children.NEXT.children.Weight"

/-- The first two steps lead to a nullable tree, from which the rest goes on. -/
theorem Catalog.follow_in_parts_cousins :
    ∃ r first, Sample.catalog.resolve 4 (.record .node) cousinPath = .ok r ∧
      Sample.catalog.resolve 4 (.record .node) (.ofText "Children.NEXT") = .ok first := by
  obtain ⟨r, h, -⟩ := exists_ok_of_any
    (show (Sample.catalog.resolve 4 (.record .node) cousinPath).toOption.any
      (fun _ => true) = true by decide +kernel)
  obtain ⟨first, hfirst⟩ :=
    (follow_in_parts Sample.catalog (.record .node) ["Children", "NEXT"]
      ["children", "Weight"]).2.2.2 4 cousinPath (.ofText "Children.NEXT") r (by decide +kernel)
      (by decide +kernel) (by decide) h
  exact ⟨r, first, h, hfirst⟩

/-! ## Routes -/

/-- What a path goes past on its way. -/
inductive Passage (ρ : Type) where
  /-- It goes through a field of a record. -/
  | field (f : Field ρ)
  /-- It enters the elements of a collection, which are of a type. -/
  | elements (type : FieldType ρ)

namespace Passage

/-- The name of the field that is gone through. -/
def name? : Passage ρ → Option String
  | field f => some f.name
  | elements _ => none

def isElements : Passage ρ → Bool
  | field _ => false
  | elements _ => true

end Passage

/-- The resolved path of a route to a leaf. -/
def Resolved.along (leaf : FieldType ρ) : List (Passage ρ) → Resolved ρ
  | [] => .leaf [] leaf
  | .field f :: route => (along leaf route).behind f.name
  | .elements type :: route => .within [] type (along leaf route)

/-- Segments lead from a type along a route to a leaf. -/
inductive Catalog.Leads (catalog : Catalog ρ) :
    FieldType ρ → List String → List (Passage ρ) → FieldType ρ → Prop
  /-- Without segments, what is no collection is the leaf. -/
  | here {type : FieldType ρ} (h : type.element? = none) : Leads catalog type [] [] type
  /-- A collection, nullable or not, is entered without spending a segment. -/
  | enter {type element leaf : FieldType ρ} {segments : List String} {route : List (Passage ρ)}
      (h : type.element? = some element) (hrest : Leads catalog element segments route leaf) :
      Leads catalog type segments (.elements element :: route) leaf
  /-- What is no collection is gone through by the field that the next segment names. -/
  | through {type leaf : FieldType ρ} {segment : String} {segments : List String}
      {field : Field ρ} {route : List (Passage ρ)} (h : type.element? = none)
      (hf : catalog.next? type segment = some field)
      (hrest : Leads catalog field.type segments route leaf) :
      Leads catalog type (segment :: segments) (.field field :: route) leaf

namespace Resolved

variable {leaf : FieldType ρ} {route : List (Passage ρ)}

theorem leafType_along (leaf : FieldType ρ) (route : List (Passage ρ)) :
    (along leaf route).leafType = leaf := by
  induction route with
  | nil => rfl
  | cons passage route ih =>
    cases passage with
    | field f => rw [along, leafType_behind, ih]
    | elements type => exact ih

/-- One layer is opened for each collection that is entered. -/
theorem depth_along (leaf : FieldType ρ) (route : List (Passage ρ)) :
    (along leaf route).depth = route.countP Passage.isElements := by
  induction route with
  | nil => rfl
  | cons passage route ih =>
    cases passage with
    | field f =>
      rw [along, depth_behind, ih]
      rfl
    | elements type =>
      rw [along, depth, ih, List.countP_cons_of_pos rfl]

theorem names_along (leaf : FieldType ρ) (route : List (Passage ρ)) :
    (along leaf route).names = route.filterMap Passage.name? := by
  induction route with
  | nil => rfl
  | cons passage route ih =>
    cases passage with
    | field f => rw [along, names_behind, ih]; rfl
    | elements type => exact ih

end Resolved

namespace Catalog

namespace Leads

variable {type leaf : FieldType ρ} {segments before after : List String} {segment : String}
  {route : List (Passage ρ)}

/-- A leaf is no collection. -/
theorem element?_leaf (h : catalog.Leads type segments route leaf) : leaf.element? = none := by
  induction h with
  | here h => exact h
  | enter _ _ ih => exact ih
  | through _ _ _ ih => exact ih

/-- Each segment goes through one field. -/
theorem length_names (h : catalog.Leads type segments route leaf) :
    (route.filterMap Passage.name?).length = segments.length := by
  induction h with
  | here _ => rfl
  | enter _ _ ih => exact ih
  | through _ _ _ ih => exact congrArg (· + 1) ih

theorem follow (h : catalog.Leads type segments route leaf) :
    catalog.follow segments type = .ok (.along leaf route) := by
  induction h with
  | here h => exact follow_nil h
  | enter h _ ih =>
    rw [follow_of_element? _ h, ih]
    rfl
  | through h hf _ ih =>
    rw [follow_cons _ h hf, ih]
    rfl

/-- Collections directly inside each other are entered one straight after the other. -/
theorem isChain_stages (h : catalog.Leads type segments route leaf) :
    (Resolved.along leaf route).stages.IsChain Resolved.Straight := by
  induction h with
  | here _ => exact .singleton _
  | @enter type element leaf segments route h hrest ih =>
    rw [Resolved.along, Resolved.stages]
    -- What the elements are decides: only a collection is entered with an empty chain.
    cases hrest with
    | here h => exact .cons_cons (fun e he => by cases h.symm.trans he) (.singleton _)
    | enter h hrest =>
      refine .cons_cons (fun e he => ?_) ih
      cases h.symm.trans he
      rfl
    | @through _ _ _ _ field route h hf hrest =>
      obtain ⟨stage, rest, hstages⟩ :=
        (Resolved.along leaf (.field field :: route)).exists_stages_eq_cons
      rw [hstages] at ih ⊢
      exact .cons_cons (fun e he => by cases h.symm.trans he) ih
  | through _ _ _ ih => exact Resolved.isChain_stages_behind ih

/-- A segment goes through the field that it names where the segments before it lead. -/
theorem split (h : catalog.Leads type (before ++ segment :: after) route leaf) :
    ∃ front back field middle, route = front ++ .field field :: back ∧
      catalog.Leads type before front middle ∧ catalog.next? middle segment = some field := by
  -- Entering a collection leaves the segments alone, so that only going through a field comes
  -- closer to the place where they are split.
  generalize hs : before ++ segment :: after = segments at h
  induction h generalizing before with
  | here _ =>
    simp at hs
  | enter h _ ih =>
    obtain ⟨front, back, field, middle, rfl, hfront, hf⟩ := ih hs
    exact ⟨_ :: front, back, field, middle, rfl, .enter h hfront, hf⟩
  | through h hf _ ih =>
    cases before with
    | nil =>
      cases hs
      exact ⟨[], _, _, _, rfl, .here h, hf⟩
    | cons first before =>
      cases hs
      obtain ⟨front, back, field, middle, rfl, hfront, hf'⟩ := ih rfl
      exact ⟨_ :: front, back, field, middle, rfl, .through h hf hfront, hf'⟩

/-- Where a segment names no field, following is over. -/
theorem follow_of_lost (h : catalog.Leads type before route leaf)
    (hf : catalog.next? leaf segment = none) (after : List String) :
    catalog.follow (before ++ segment :: after) type =
      .error (.unknownField segment (leaf.owner catalog)) := by
  rw [follow_append h.follow, Resolved.leafType_along, follow_cons_of_none after h.element?_leaf hf]
  rfl

end Leads

/-- A path that can be followed leads to its leaf. -/
theorem exists_leads_of_follow {segments : List String} {type : FieldType ρ} {r : Resolved ρ}
    (h : catalog.follow segments type = .ok r) :
    ∃ route leaf, catalog.Leads type segments route leaf ∧ r = .along leaf route := by
  induction segments, type using follow_induction generalizing r with
  | element segments type element he ih =>
    rw [follow_of_element? _ he] at h
    obtain ⟨inner, hinner, rfl⟩ := map_eq_ok_iff.1 h
    obtain ⟨route, leaf, hleads, rfl⟩ := ih hinner
    exact ⟨_, leaf, .enter he hleads, rfl⟩
  | leaf type he =>
    rw [follow_nil he] at h
    cases h
    exact ⟨[], type, .here he, rfl⟩
  | segment segment segments type he ih =>
    obtain ⟨field, inner, hf, hinner, rfl⟩ := exists_next?_of_follow he h
    obtain ⟨route, leaf, hleads, rfl⟩ := ih field.type hinner
    exact ⟨_, leaf, .through he hf hleads, rfl⟩

/-- A path that cannot be followed is lost at a segment that names no field where the segments
before it lead. -/
theorem exists_lost_of_follow {segments : List String} {type : FieldType ρ} {e : FilterError}
    (h : catalog.follow segments type = .error e) :
    ∃ before segment after route leaf, segments = before ++ segment :: after ∧
      catalog.Leads type before route leaf ∧ catalog.next? leaf segment = none ∧
      e = .unknownField segment (leaf.owner catalog) := by
  induction segments, type using follow_induction with
  | element segments type element he ih =>
    rw [follow_of_element? _ he, map_eq_error_iff] at h
    obtain ⟨before, segment, after, route, leaf, hs, hleads, hlost⟩ := ih h
    exact ⟨before, segment, after, _, leaf, hs, .enter he hleads, hlost⟩
  | leaf type he =>
    rw [follow_nil he] at h
    cases h
  | segment segment segments type he ih =>
    cases hf : catalog.next? type segment with
    | none =>
      rw [follow_cons_of_none _ he hf] at h
      cases h
      exact ⟨[], segment, segments, [], type, rfl, .here he, hf, rfl⟩
    | some field =>
      rw [follow_cons _ he hf, map_eq_error_iff] at h
      obtain ⟨before, lost, after, route, leaf, rfl, hleads, hlost⟩ := ih field.type h
      exact ⟨segment :: before, lost, after, _, leaf, rfl, .through he hf hleads, hlost⟩

/-! ## Outcomes -/

/-- What resolving a path of at most `maxDepth` segments comes to. -/
inductive Outcome (catalog : Catalog ρ) (maxDepth : Nat) (root : FieldType ρ) (path : Path) :
    Except FilterError (Resolved ρ) → Prop
  /-- The path has no segments or a blank one. -/
  | unnamed (h : path.segments = [] ∨ "" ∈ path.segments) :
    Outcome catalog maxDepth root path (.error (.unknownField "" (root.name catalog)))
  /-- The path has too many segments, whatever they are. -/
  | tooLong (hnaming : path.segments ≠ [] ∧ "" ∉ path.segments) (h : maxDepth < path.length) :
    Outcome catalog maxDepth root path (.error (.limitExceeded .pathDepth maxDepth))
  /-- Some segments can be followed to a leaf, and the next one names no field there. -/
  | lost (hnaming : path.segments ≠ [] ∧ "" ∉ path.segments) (hshort : path.length ≤ maxDepth)
    {before after : List String} {segment : String} {route : List (Passage ρ)}
    {leaf : FieldType ρ} (h : path.segments = before ++ segment :: after)
    (hleads : catalog.Leads root before route leaf) (hf : catalog.next? leaf segment = none) :
    Outcome catalog maxDepth root path (.error (.unknownField segment (leaf.owner catalog)))
  /-- All segments can be followed. -/
  | found (hnaming : path.segments ≠ [] ∧ "" ∉ path.segments) (hshort : path.length ≤ maxDepth)
    {route : List (Passage ρ)} {leaf : FieldType ρ}
    (hleads : catalog.Leads root path.segments route leaf) :
    Outcome catalog maxDepth root path (.ok (.along leaf route))

theorem resolve_eq_of_outcome {maxDepth : Nat} {root : FieldType ρ} {path : Path}
    {outcome : Except FilterError (Resolved ρ)} (h : catalog.Outcome maxDepth root path outcome) :
    catalog.resolve maxDepth root path = outcome := by
  cases h with
  | unnamed h => exact resolve_of_not_naming h
  | tooLong hnaming h => exact resolve_of_lt hnaming h
  | lost hnaming hshort h hleads hf =>
    rw [resolve_of_le hnaming hshort, h, hleads.follow_of_lost hf]
  | found hnaming hshort hleads => rw [resolve_of_le hnaming hshort, hleads.follow]

theorem outcome_resolve (maxDepth : Nat) (root : FieldType ρ) (path : Path) :
    catalog.Outcome maxDepth root path (catalog.resolve maxDepth root path) := by
  by_cases hnaming : path.segments = [] ∨ "" ∈ path.segments
  · rw [resolve_of_not_naming hnaming]
    exact .unnamed hnaming
  · rw [not_or] at hnaming
    rcases Nat.lt_or_ge maxDepth path.length with hlong | hshort
    · rw [resolve_of_lt hnaming hlong]
      exact .tooLong hnaming hlong
    · rw [resolve_of_le hnaming hshort]
      cases hfollow : catalog.follow path.segments root with
      | ok r =>
        obtain ⟨route, leaf, hleads, rfl⟩ := exists_leads_of_follow hfollow
        exact .found hnaming hshort hleads
      | error e =>
        obtain ⟨before, segment, after, route, leaf, hs, hleads, hf, rfl⟩ :=
          exists_lost_of_follow hfollow
        exact .lost hnaming hshort hs hleads hf

/-- What a resolved path looks like: its leaf is no collection, it has a layer for each collection
that is entered on its route, one straight after the other where collections are directly inside
each other, and its chains together name one field for each segment, in order, which is the one
that the segment names where the segments before it lead. -/
structure Depicts (catalog : Catalog ρ) (root : FieldType ρ) (segments : List String)
    (r : Resolved ρ) : Prop where
  leaf : r.leafType.element? = none
  layers : ∃ route, catalog.Leads root segments route r.leafType ∧
    r.depth = route.countP Passage.isElements
  straight : r.stages.IsChain Resolved.Straight
  length_names : r.names.length = segments.length
  name : ∀ before segment after, segments = before ++ segment :: after →
    ∃ route middle field, catalog.Leads root before route middle ∧
      catalog.next? middle segment = some field ∧ r.names[before.length]? = some field.name

theorem Leads.depicts {root leaf : FieldType ρ} {segments : List String}
    {route : List (Passage ρ)} (h : catalog.Leads root segments route leaf) :
    catalog.Depicts root segments (.along leaf route) where
  leaf := by
    rw [Resolved.leafType_along]
    exact h.element?_leaf
  layers := by
    rw [Resolved.leafType_along]
    exact ⟨route, h, Resolved.depth_along leaf route⟩
  straight := h.isChain_stages
  length_names := by
    rw [Resolved.names_along]
    exact h.length_names
  name before segment after hs := by
    subst hs
    obtain ⟨front, back, field, middle, rfl, hfront, hf⟩ := h.split
    refine ⟨front, middle, field, hfront, hf, ?_⟩
    rw [Resolved.names_along, List.filterMap_append, ← hfront.length_names,
      List.getElem?_append_right (Nat.le_refl _), Nat.sub_self]
    rfl

/-- **Resolving a path.** Its outcome is exactly this. A path without segments or with a blank one
is an unknown field of the type it starts from; otherwise a path that is too long exceeds the
limit; otherwise the first segment that names no field where the ones before it lead is unknown
there; and otherwise the path resolves along its route, to what `Depicts` says. -/
theorem resolve_outcome (catalog : Catalog ρ) (maxDepth : Nat) (root : FieldType ρ) (path : Path) :
    (∀ outcome, catalog.resolve maxDepth root path = outcome ↔
      catalog.Outcome maxDepth root path outcome) ∧
    ∀ r, catalog.resolve maxDepth root path = .ok r → catalog.Depicts root path.segments r := by
  refine ⟨fun outcome => ⟨?_, resolve_eq_of_outcome⟩, fun r h => ?_⟩
  · rintro rfl
    exact outcome_resolve maxDepth root path
  · have houtcome : catalog.Outcome maxDepth root path (.ok r) := h ▸ outcome_resolve _ _ _
    cases houtcome with
    | found _ _ hleads => exact hleads.depicts

/-- The cells of a matrix are found in the elements of elements. -/
theorem resolve_outcome_cells :
    ∃ r, Sample.catalog.resolve 1 (.record .everything) (.ofText " MATRIX ") = .ok r ∧
      r.depth = 2 ∧
      Sample.catalog.Depicts (.record .everything) (Path.ofText " MATRIX ").segments r := by
  obtain ⟨r, h, hdepth⟩ := exists_ok_of_any
    (show (Sample.catalog.resolve 1 (.record .everything) (.ofText " MATRIX ")).toOption.any
      (fun r => r.depth == 2) = true by decide +kernel)
  exact ⟨r, h, beq_iff_eq.1 hdepth, (resolve_outcome _ _ _ _).2 r h⟩

end Catalog

end RecordFilter
