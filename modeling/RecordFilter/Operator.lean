import RecordFilter.Text.Name

/-!
# Operators and combinators

The nine comparisons of a clause, and the two ways of joining a truth value to the ones before it.
Both are named without regard to case and numbered from one.
-/

namespace RecordFilter

/-- Where each thing is found by its own code, a code finds the thing that has it. -/
theorem find?_code_eq_some_iff {α : Type} {code : α → Nat} {all : List α}
    (h : ∀ a, all.find? (code · == code a) = some a) {n : Nat} {a : α} :
    all.find? (code · == n) = some a ↔ code a = n := by
  constructor
  · intro hfind
    simpa using List.find?_some hfind
  · rintro rfl
    exact h a

/-- How a clause compares a field with its literal. -/
inductive Operator where
  | equal
  | notEqual
  | greater
  | greaterOrEqual
  | less
  | lessOrEqual
  | contains
  | startsWith
  | endsWith
deriving DecidableEq

namespace Operator

/-- Every operator, in the order of the codes. -/
def all : List Operator :=
  [equal, notEqual, greater, greaterOrEqual, less, lessOrEqual, contains, startsWith, endsWith]

def code : Operator → Nat
  | equal => 1
  | notEqual => 2
  | greater => 3
  | greaterOrEqual => 4
  | less => 5
  | lessOrEqual => 6
  | contains => 7
  | startsWith => 8
  | endsWith => 9

def name : Operator → String
  | equal => "Equal"
  | notEqual => "NotEqual"
  | greater => "Greater"
  | greaterOrEqual => "GreaterOrEqual"
  | less => "Less"
  | lessOrEqual => "LessOrEqual"
  | contains => "Contains"
  | startsWith => "StartsWith"
  | endsWith => "EndsWith"

/-- The operator in words. -/
def label : Operator → String
  | equal => "equals"
  | notEqual => "does not equal"
  | greater => "greater than"
  | greaterOrEqual => "greater than or equal to"
  | less => "less than"
  | lessOrEqual => "less than or equal to"
  | contains => "contains"
  | startsWith => "starts with"
  | endsWith => "ends with"

/-- The operators that need an ordered type. -/
def isOrdering : Operator → Bool
  | greater | greaterOrEqual | less | lessOrEqual => true
  | _ => false

/-- The operators that need text. -/
def isTextual : Operator → Bool
  | contains | startsWith | endsWith => true
  | _ => false

def ofCode? (code : Nat) : Option Operator := all.find? (·.code == code)

def ofName? (name : String) : Option Operator := all.find? fun op => Text.sameName op.name name

theorem mem_all (op : Operator) : op ∈ all := by cases op <;> decide

@[simp] theorem ofCode?_code (op : Operator) : ofCode? op.code = some op := by
  cases op <;> decide

theorem ofCode?_eq_some_iff {n : Nat} {op : Operator} : ofCode? n = some op ↔ op.code = n :=
  find?_code_eq_some_iff ofCode?_code

/-- The names differ even without ASCII case, so their order does not matter. -/
theorem ofName?_eq_some_iff {s : String} {op : Operator} :
    ofName? s = some op ↔ Text.sameName op.name s = true := by
  have hapart : all.Pairwise fun a b => Text.sameName a.name b.name = false := by decide
  rw [ofName?, Text.find?_sameName_eq_some_iff hapart]
  exact and_iff_right op.mem_all

end Operator

/-- How a truth value is joined to the ones before it. -/
inductive Combinator where
  | and
  | or
deriving DecidableEq

namespace Combinator

/-- Both combinators, in the order of the codes. -/
def all : List Combinator := [and, or]

/-- The combinator where none is given. -/
def standard : Combinator := and

def code : Combinator → Nat
  | and => 1
  | or => 2

def name : Combinator → String
  | and => "And"
  | or => "Or"

/-- The combinator in words. -/
def label : Combinator → String
  | and => "and"
  | or => "or"

/-- Whether the next value is looked at after `before`. -/
def asks : Combinator → Bool → Bool
  | and, before => before
  | or, before => !before

/-- Joins the next value, which only matters if it is asked for. -/
def apply (c : Combinator) (before next : Bool) : Bool := if c.asks before then next else before

@[simp] theorem apply_and (before next : Bool) : and.apply before next = (before && next) := by
  cases before <;> rfl

@[simp] theorem apply_or (before next : Bool) : or.apply before next = (before || next) := by
  cases before <;> rfl

def ofCode? (code : Nat) : Option Combinator := all.find? (·.code == code)

def ofName? (name : String) : Option Combinator := all.find? fun c => Text.sameName c.name name

theorem mem_all (c : Combinator) : c ∈ all := by cases c <;> decide

@[simp] theorem ofCode?_code (c : Combinator) : ofCode? c.code = some c := by
  cases c <;> decide

theorem ofCode?_eq_some_iff {n : Nat} {c : Combinator} : ofCode? n = some c ↔ c.code = n :=
  find?_code_eq_some_iff ofCode?_code

theorem ofName?_eq_some_iff {s : String} {c : Combinator} :
    ofName? s = some c ↔ Text.sameName c.name s = true := by
  have hapart : all.Pairwise fun a b => Text.sameName a.name b.name = false := by decide
  rw [ofName?, Text.find?_sameName_eq_some_iff hapart]
  exact and_iff_right c.mem_all

end Combinator

end RecordFilter
