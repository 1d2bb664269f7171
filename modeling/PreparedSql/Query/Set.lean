import PreparedSql.Prepared.Artifact

/-! Query sets. A query set is a query that is still being built, or one that
is prepared and therefore keeps its shape. Every change gives a new query set;
what was compiled for a query is kept in a cell that its copies share. -/
namespace PreparedSql

/-- An artifact and the number of the compilation that made it. -/
structure Compiled where
  serial : Nat
  artifact : Artifact

/-- What queries share: the types of parameters and the compiled statements. -/
structure Store where
  types : Types := .empty
  memos : Nat → Option Compiled := fun _ => none
  /-- The next cell to be handed out. -/
  nextMemo : Nat := 0
  nextSerial : Nat := 0

namespace Store

/-- An empty cell that no query has. -/
def freshMemo : Action Store Nat := do
  let s ← get
  set ({ s with nextMemo := s.nextMemo + 1 } : Store)
  return s.nextMemo

/-- Fills a cell, unless it is filled. -/
def remember (s : Store) (memo : Nat) (c : Compiled) : Store :=
  { s with memos := fun m => if m = memo then (s.memos m).or (some c) else s.memos m }

/-- An action on the types of parameters. -/
def withTypes {α : Type} (a : Action Types α) : Action Store α :=
  a.zoom Store.types fun types s => { s with types := types }

/-- Compiles a query, or finds it compiled. The cell of a query keeps what was
compiled for it first; for another database it is compiled each time. -/
def compile (v : Vendor) (q : Query) : Action Store Compiled := do
  match ((← get).memos q.memo).filter (·.artifact.vendor == v) with
  | some c => return c
  | none =>
    let artifact ← withTypes (Prepared.compile v q)
    let s ← get
    let c : Compiled := ⟨s.nextSerial, artifact⟩
    set ({ s with nextSerial := s.nextSerial + 1 } : Store)
    modify (·.remember q.memo c)
    return c

end Store

inductive QuerySet where
  | building (q : Query)
  | prepared (q : Query) (c : Compiled)

namespace QuerySet

def query : QuerySet → Query
  | building q => q
  | prepared q _ => q

def isPrepared : QuerySet → Bool
  | building _ => false
  | prepared _ _ => true

def compiled? : QuerySet → Option Compiled
  | building _ => none
  | prepared _ c => some c

/-- All rows of a model. -/
def ofModel (m : Model) : Action Store QuerySet := do
  return building { Query.ofModel m with memo := ← Store.freshMemo }

/-- The query, when it is still being built. -/
def stillBuilding (operation : String) : QuerySet → Except Failure Query
  | building q => .ok q
  | prepared _ _ => .error (.operationOnPreparedStatement operation)

/-- A changed copy of the query, with a cell of its own. -/
def narrowed (operation : String) (change : Action Query Unit) (s : QuerySet) :
    Action Store Query := do
  let q ← Action.ofExcept (s.stillBuilding operation)
  Action.separately { q with memo := ← Store.freshMemo } change

def derive (operation : String) (change : Action Query Unit) (s : QuerySet) :
    Action Store QuerySet :=
  return building (← s.narrowed operation change)

def filter (e : Expr) : QuerySet → Action Store QuerySet :=
  derive "filter" (Query.addCondition e .and)

def exclude (e : Expr) : QuerySet → Action Store QuerySet :=
  derive "exclude" (Query.exclude e)

def orderBy (order : Order) (e : Expr) : QuerySet → Action Store QuerySet :=
  derive "order_by" (Query.addOrdering order e)

def annotate (alias_ : String) (e : Expr) : QuerySet → Action Store QuerySet :=
  derive "annotate" (Query.annotate alias_ e)

/-- Projects the columns; rows are read with their labels. -/
def values (columns : List Column) : QuerySet → Action Store QuerySet :=
  derive "values" (modify (Query.project columns))

/-- Projects the columns; rows are read without their labels. -/
def valuesList (columns : List Column) : QuerySet → Action Store QuerySet :=
  derive "values_list" (modify (Query.project columns))

def only (columns : List Column) : QuerySet → Action Store QuerySet :=
  derive "only" (modify (Query.only columns))

def defer (columns : List Column) : QuerySet → Action Store QuerySet :=
  derive "defer" (modify (Query.defer columns))

def relate (operation : String) (names : List String) : QuerySet → Action Store QuerySet :=
  derive operation (modify fun q => { q with related := q.related ++ names })

def selectRelated : List String → QuerySet → Action Store QuerySet :=
  relate "select_related"

def prefetchRelated : List String → QuerySet → Action Store QuerySet :=
  relate "prefetch_related"

def distinct : QuerySet → Action Store QuerySet :=
  derive "distinct" (modify fun q => { q with distinct := true })

def reverse : QuerySet → Action Store QuerySet :=
  derive "reverse" (modify Query.reverse)

def onDatabase (database : String) : QuerySet → Action Store QuerySet :=
  derive "using" (modify fun q => { q with database := some database })

/-- No row at all. -/
def empty : QuerySet → Action Store QuerySet :=
  derive "none" (Query.addCondition (.truth false) .and)

def combine (operation : String) (op : BinaryOperator) (other : QuerySet) (s : QuerySet) :
    Action Store QuerySet := do
  let other ← Action.ofExcept (other.stillBuilding operation)
  s.derive operation (Query.combine other op)

/-- The rows of both query sets. -/
def intersect : QuerySet → QuerySet → Action Store QuerySet :=
  combine "and" .and

/-- The rows of either query set. -/
def union : QuerySet → QuerySet → Action Store QuerySet :=
  combine "or" .or

/-- The rows from `low` up to `high` of the current ones. -/
def slice (low : Bound) (high : Option Bound) : QuerySet → Action Store QuerySet :=
  derive "slice" (Query.slice low high)

def limit (count : Bound) : QuerySet → Action Store QuerySet :=
  derive "limit" (Query.slice .zero (some count))

def offset (skip : Bound) : QuerySet → Action Store QuerySet :=
  derive "offset" (Query.slice skip none)

/-- Compiles the query for a database. A query set prepared for it already is
the answer itself. -/
def prepareFor (v : Vendor) (s : QuerySet) : Action Store QuerySet := do
  match s.compiled?.filter (·.artifact.vendor == v) with
  | some _ => return s
  | _ => return prepared s.query (← Store.compile v s.query)

/-- The query set as it is shown. -/
def display : QuerySet → Except Failure String
  | building q => do return "QuerySet <" ++ (← (q.selectTemplate .generic).display) ++ ">"
  | prepared _ c => .ok ("PreparedQuerySet <" ++ c.artifact.display ++ ">")

end QuerySet

end PreparedSql
