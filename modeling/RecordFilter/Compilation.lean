import RecordFilter.Condition
import RecordFilter.Limits
import RecordFilter.Request
import RecordFilter.Resolution

/-!
# Requests compiled to conditions

A request is compiled against a record type, or refused for the first thing wrong with it. Within a
group, neighbouring clauses that go through the same collection ask for one element that satisfies
them all: they form a block, which stands where its first clause stands and is joined as that one
is. Inside a block the same happens again with what is left of the paths. Clauses that go through
no collection, and clauses that are separated by another one, are blocks of their own.
-/

namespace RecordFilter

/-- A clause with its path resolved, or a run of clauses that share a collection. -/
inductive Block (ρ : Type) where
  /-- A test of the value at the end of a chain of fields. -/
  | direct (combinator : Combinator) (chain : List String) (type : FieldType ρ)
      (operator : Operator) (literal : Literal)
  /-- Blocks that one element of the collection at the end of a chain of fields has to satisfy. -/
  | shared (combinator : Combinator) (chain : List String) (blocks : List (Block ρ))

namespace Block

variable {ρ : Type}

/-- Puts a clause in front of the blocks that follow it, and into the first one if both go through
the same collection. -/
def insert (combinator : Combinator) (operator : Operator) (literal : Literal) :
    Resolved ρ → List (Block ρ) → List (Block ρ)
  | .leaf chain type, blocks => direct combinator chain type operator literal :: blocks
  | .within chain _ inner, shared next chain' members :: blocks =>
    if chain = chain' then
      shared combinator chain (insert combinator operator literal inner members) :: blocks
    else
      shared combinator chain (insert combinator operator literal inner []) ::
        shared next chain' members :: blocks
  | .within chain _ inner, blocks =>
    shared combinator chain (insert combinator operator literal inner []) :: blocks

/-- The blocks of clauses with resolved paths. -/
def ofClauses (clauses : List (Clause × Resolved ρ)) : List (Block ρ) :=
  clauses.foldr (fun (c, r) => insert c.combinator c.operator c.literal r) []

/-- The test at the end of a chain of fields. -/
def compileTest (catalog : Catalog ρ) (chain : List String) (type : FieldType ρ)
    (operator : Operator) (literal : Literal) : Except FilterError Condition := do
  let coerced ← literal.coerce catalog type
  let test ← ValueTest.build catalog type coerced operator
  return .test chain test

/-- Refuses a direct clause that does not compile. -/
def check (catalog : Catalog ρ) : Block ρ → Except FilterError Unit
  | direct _ chain type operator literal =>
    (compileTest catalog chain type operator literal).map fun _ => ()
  | shared _ _ _ => .ok ()

mutual

/-- The condition of a block, with its combinator. -/
def compile (catalog : Catalog ρ) : Block ρ → Except FilterError (Combinator × Condition)
  | direct combinator chain type operator literal => do
    let condition ← compileTest catalog chain type operator literal
    return (combinator, condition)
  | shared combinator chain blocks => do
    blocks.forM (check catalog)
    let conditions ← compileEach catalog blocks
    return (combinator, .someElement chain (.joined conditions))

/-- The conditions of blocks. -/
def compileEach (catalog : Catalog ρ) :
    List (Block ρ) → Except FilterError (List (Combinator × Condition))
  | [] => return []
  | block :: blocks => do
    let condition ← compile catalog block
    let conditions ← compileEach catalog blocks
    return condition :: conditions

end

/-- The condition of blocks joined from left to right. Direct clauses are looked at first. -/
def compileAll (catalog : Catalog ρ) (blocks : List (Block ρ)) : Except FilterError Condition := do
  blocks.forM (check catalog)
  let conditions ← compileEach catalog blocks
  return .joined conditions

end Block

/-- The condition of a group. All paths are resolved before anything else is looked at. -/
def Group.compile {ρ : Type} (catalog : Catalog ρ) (root : ρ) (maxDepth : Nat) (group : Group) :
    Except FilterError Condition := do
  let clauses ← group.clauses.mapM fun clause => do
    let resolved ← catalog.resolve maxDepth (.record root) clause.path
    return (clause, resolved)
  Block.compileAll catalog (Block.ofClauses clauses)

/-- The condition of a request against a record type. Groups without clauses are passed over, and a
request without clauses asks for nothing. -/
def Request.compile {ρ : Type} (catalog : Catalog ρ) (root : ρ) (limits : Limits)
    (request : Request) : Except FilterError Condition := do
  if limits.maxClauses < request.clauseCount then
    throw (.limitExceeded .clauseCount limits.maxClauses)
  let conditions ← (request.groups.filter fun g => !g.isEmpty).mapM fun group => do
    let condition ← group.compile catalog root limits.maxPathDepth
    return (group.combinator, condition)
  return .joined conditions

end RecordFilter
