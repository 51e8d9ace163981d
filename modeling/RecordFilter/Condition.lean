import RecordFilter.Operator
import RecordFilter.ValueTest

/-!
# Conditions

A compiled request. A condition holds of a value or not; it never fails, whatever the value is.
-/

namespace RecordFilter

/-- A condition on a value. -/
inductive Condition where
  | always
  /-- The value at the end of a chain of fields passes a test. -/
  | test (chain : List String) (test : ValueTest)
  /-- Some element of the collection at the end of a chain of fields meets a condition. -/
  | someElement (chain : List String) (inner : Condition)
  /-- Two conditions, the second joined to the first. -/
  | join (combinator : Combinator) (before next : Condition)
deriving DecidableEq

namespace Condition

/-- Whether a condition holds of a value. Only a list has elements. -/
def holds : Condition → Value → Bool
  | always, _ => true
  | test chain t, v => t.passes (v.walk chain)
  | someElement chain inner, v =>
    match v.walk chain with
    | .list items => items.any inner.holds
    | _ => false
  | join combinator before next, v => combinator.apply (before.holds v) (next.holds v)

/-- Conditions joined from left to right without precedence. The first one's combinator joins it to
nothing, and where there are no conditions nothing is asked. -/
def joined : List (Combinator × Condition) → Condition
  | [] => always
  | (_, first) :: rest => rest.foldl (fun before next => join next.1 before next.2) first

/-- The records that meet a condition, in order. -/
def filter (c : Condition) (records : List Value) : List Value := records.filter c.holds

end Condition

end RecordFilter
