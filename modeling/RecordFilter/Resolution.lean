import RecordFilter.Path
import RecordFilter.Schema

/-!
# Paths resolved against types

A path is followed from a type inwards. Where it meets a collection, the rest of it applies to the
elements, and this opens a layer; where it meets a record, it takes the next segment; where it has
no segments left, it has reached its leaf. A resolved path is the chain of fields to the first
collection, the layer behind it, and so on to the chain that ends at the leaf.
-/

namespace RecordFilter

/-- A path resolved against a type. -/
inductive Resolved (ρ : Type) where
  /-- The value at the end of a chain of fields. -/
  | leaf (chain : List String) (type : FieldType ρ)
  /-- The elements of the collection at the end of a chain of fields, each followed further. -/
  | within (chain : List String) (element : FieldType ρ) (inner : Resolved ρ)
deriving DecidableEq

namespace Resolved

variable {ρ : Type}

/-- The chain up to the first collection, or to the leaf. -/
def chain : Resolved ρ → List String
  | leaf chain _ => chain
  | within chain _ _ => chain

/-- The type at the end. -/
def leafType : Resolved ρ → FieldType ρ
  | leaf _ type => type
  | within _ _ inner => inner.leafType

/-- The number of collections crossed. -/
def depth : Resolved ρ → Nat
  | leaf _ _ => 0
  | within _ _ inner => inner.depth + 1

/-- Whether a collection is crossed. -/
def isExistential : Resolved ρ → Bool
  | leaf _ _ => false
  | within _ _ _ => true

/-- The same path, reached through a field. -/
def behind (name : String) : Resolved ρ → Resolved ρ
  | leaf chain type => leaf (name :: chain) type
  | within chain element inner => within (name :: chain) element inner

/-- The same path, in the elements of collections nested directly in each other. -/
def inElements (elements : List (FieldType ρ)) (r : Resolved ρ) : Resolved ρ :=
  elements.foldr (within []) r

end Resolved

namespace FieldType

variable {ρ : Type}

/-- The element types of the collections that a type consists of before anything else. -/
def elements : FieldType ρ → List (FieldType ρ)
  | list element => element :: element.elements
  | optional inner => inner.elements
  | _ => []

/-- The type inside the collections that a type consists of before anything else. -/
def innermost : FieldType ρ → FieldType ρ
  | list element => element.innermost
  | optional inner =>
    match inner.elements with
    | [] => optional inner
    | _ :: _ => inner.innermost
  | other => other

end FieldType

/-- Follows segments from a type inwards. -/
def Catalog.follow {ρ : Type} (catalog : Catalog ρ) :
    List String → FieldType ρ → Except FilterError (Resolved ρ)
  | [], type => .ok ((Resolved.leaf [] type.innermost).inElements type.elements)
  | segment :: segments, type =>
    match type.innermost.record? with
    | none => .error (.unknownField segment (type.innermost.name catalog))
    | some reference =>
      match (catalog reference).find? segment with
      | none => .error (.unknownField segment (catalog reference).name)
      | some field =>
        match catalog.follow segments field.type with
        | .error error => .error error
        | .ok inner => .ok ((inner.behind field.name).inElements type.elements)

/-- Resolves a path of at most `maxDepth` segments against a type. -/
def Catalog.resolve {ρ : Type} (catalog : Catalog ρ) (maxDepth : Nat) (root : FieldType ρ)
    (path : Path) : Except FilterError (Resolved ρ) :=
  match path.validate (root.name catalog) with
  | .error error => .error error
  | .ok () =>
    if maxDepth < path.length then .error (.limitExceeded .pathDepth maxDepth)
    else catalog.follow path.segments root

end RecordFilter
