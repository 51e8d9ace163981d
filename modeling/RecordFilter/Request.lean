import RecordFilter.Literal
import RecordFilter.Path

/-!
# Requests

A request is a list of groups and a group a list of clauses. Clauses and groups each carry the
combinator that joins them to the ones before.
-/

namespace RecordFilter

/-- One condition. -/
structure Clause where
  path : Path
  operator : Operator
  literal : Literal
  combinator : Combinator
deriving DecidableEq

/-- Clauses in order, joined from left to right. -/
structure Group where
  clauses : List Clause
  combinator : Combinator
deriving DecidableEq

namespace Group

/-- The group without clauses. -/
def empty : Group := ⟨[], .standard⟩

def isEmpty (g : Group) : Bool := g.clauses.isEmpty

end Group

/-- Groups in order, joined from left to right. -/
structure Request where
  groups : List Group
deriving DecidableEq

namespace Request

/-- The request without groups. -/
def empty : Request := ⟨[]⟩

/-- The number of clauses in all groups. -/
def clauseCount (r : Request) : Nat := r.groups.foldr (fun g n => g.clauses.length + n) 0

end Request

end RecordFilter
