import PreparedSql.Param.Registry
import PreparedSql.Sql.Statement

/-! Queries over one table, independent of the database that will answer them.
Every change is an action on a query; what a refused change has done up to the
refusal stays done. -/
namespace PreparedSql

structure Query where
  model : Model
  /-- The projected columns; all columns of the model when absent. -/
  fields : Option (List Column) := none
  annotations : List (String × Expr) := []
  condition : Option Expr := none
  orderBy : List (Order × Expr) := []
  distinct : Bool := false
  low : Bound := .zero
  high : Option Bound := none
  params : Registry := {}
  related : List String := []
  database : Option String := none
  /-- The cell that keeps the compiled statement. Copies of a query share it
  until one of them changes. -/
  memo : Nat := 0

namespace Query

/-- All rows of a model. -/
def ofModel (m : Model) : Query := { model := m }

abbrev table (q : Query) : TableRef := q.model.table

def isSliced (q : Query) : Bool :=
  q.high.isSome || !q.low.isZero

/-- A change of the registry of a query. -/
def registering {α : Type} (a : Action Registry α) : Action Query α :=
  a.zoom Query.params fun r q => { q with params := r }

/-- Narrows or widens the condition. -/
def addCondition (e : Expr) (op : BinaryOperator) : Action Query Unit := do
  if (← get).isSliced then throw .filterAfterSlice
  registering (Registry.registerExpr e)
  modify fun q => { q with
    condition := some (match q.condition with
      | some current => .binary op current e
      | none => e) }

/-- Leaves out the rows that fulfil the condition. -/
def exclude (e : Expr) : Action Query Unit :=
  addCondition (.unary .not e) .and

def addOrdering (order : Order) (e : Expr) : Action Query Unit := do
  if (← get).isSliced then throw .reorderAfterSlice
  registering (Registry.registerExpr e)
  modify fun q => { q with orderBy := q.orderBy ++ [(order, e)] }

/-- Turns every ordering around; without one, orders by the primary key downwards. -/
def reverse (q : Query) : Query :=
  { q with
    orderBy :=
      if q.orderBy.isEmpty then [(.descending, .column q.model.primaryKey)]
      else q.orderBy.map fun (order, e) => (order.reversed, e) }

/-- Projects an expression under an alias of its own. -/
def annotate (alias_ : String) (e : Expr) : Action Query Unit := do
  if (← get).annotations.any (·.1 == alias_) then throw (.conflictingAlias alias_)
  registering (Registry.registerExpr e)
  modify fun q => { q with annotations := q.annotations ++ [(alias_, e)] }

/-- The sum of row numbers, which stops at the greatest. -/
def addRows (a b : Nat) : Nat :=
  min (a + b) Bound.greatestRow

/-- The row number of a bound that has to be one. -/
def rowNumber : Bound → Except Failure Nat
  | .row n => .ok n
  | .param _ => .error .sliceByParameter

def rowNumber? : Option Bound → Except Failure (Option Nat)
  | none => .ok none
  | some b => (rowNumber b).map some

/-- A window inside a window, both in row numbers. -/
def narrower (low : Nat) (high : Option Nat) (innerLow : Nat) (innerHigh : Option Nat) :
    Nat × Option Nat :=
  let newHigh := match innerHigh, high with
    | some h, some current => some (min current (addRows low h))
    | some h, none => some (addRows low h)
    | none, current => current
  let newLow := addRows low innerLow
  (match newHigh with
    | some h => min newLow h
    | none => newLow, newHigh)

/-- Narrows the rows to those from `low` up to `high`, counted within the
current slice. Only row numbers can be narrowed again. -/
def slice (low : Bound) (high : Option Bound) : Action Query Unit := do
  let q ← get
  if q.isSliced then
    let currentLow ← Action.ofExcept (rowNumber q.low)
    let currentHigh ← Action.ofExcept (rowNumber? q.high)
    let low ← Action.ofExcept (rowNumber low)
    let high ← Action.ofExcept (rowNumber? high)
    let (newLow, newHigh) := narrower currentLow currentHigh low high
    modify fun q => { q with low := .row newLow, high := newHigh.map .row }
  else
    registering (low.walk Registry.visitor)
    high.forM fun b => registering (b.walk Registry.visitor)
    modify fun q => { q with low := low, high := high }

/-- Visits every parameter of the query. -/
def walk {m : Type → Type} [Monad m] (visitor : Visitor m) (q : Query) : m Unit := do
  q.annotations.forM fun (_, e) => e.walk visitor {}
  q.condition.forM (Expr.walk visitor {})
  q.orderBy.forM fun (_, e) => e.walk visitor {}
  q.low.walk visitor
  q.high.forM (Bound.walk visitor)

/-- The condition that two conditions make together. A missing condition
admits every row. -/
def combined (op : BinaryOperator) : Option Expr → Option Expr → Option Expr
  | some l, some r => some (.binary op l r)
  | l, r => if op = .and then l.or r else none

/-- Takes in the condition of another query on the same table, and its parameters. -/
def combine (other : Query) (op : BinaryOperator) : Action Query Unit := do
  let q ← get
  if q.table ≠ other.table then
    throw (.differentTables q.table.fullName other.table.fullName)
  if q.isSliced || other.isSliced then throw .combineAfterSlice
  modify fun q => { q with condition := combined op q.condition other.condition }
  let params ← Action.separately {} ((← get).walk Registry.visitor)
  modify fun q => { q with params := params }

/-- Projects the columns and nothing else. -/
def project (columns : List Column) (q : Query) : Query :=
  { q with fields := some columns }

/-- Projects the columns and the primary key. -/
def only (columns : List Column) (q : Query) : Query :=
  let key := if columns.any Column.primaryKey then [] else [q.model.primaryKey]
  q.project (key ++ columns)

/-- Leaves the columns out of the projection, the primary key apart. -/
def defer (columns : List Column) (q : Query) : Query :=
  let current := q.fields.getD q.model.columns
  q.project (current.filter fun c => c.primaryKey || !columns.any (·.ref == c.ref))

/-- What the query projects: its columns, then its annotations. -/
def projection (q : Query) : List (Expr × Option String) :=
  (q.fields.getD q.model.columns).map (fun c => (.column c, none))
    ++ q.annotations.map fun (alias_, e) => (e, some alias_)

def selection (q : Query) (columns : List (Expr × Option String)) : Selection where
  table := q.table
  distinct := q.distinct
  columns := columns
  condition := q.condition
  orderBy := q.orderBy.map fun (order, e) => .ordered order e
  low := q.low
  high := q.high

def selectTemplate (q : Query) (f : Flavor) : Template :=
  .ofPieces (f.select (q.selection q.projection))

/-- Counting needs the projection only to tell duplicates. -/
def countTemplate (q : Query) (f : Flavor) : Template :=
  let columns := if q.distinct then q.projection else [(.column q.model.primaryKey, none)]
  .ofPieces (f.selectCount (q.selection columns))

def updateTemplate (q : Query) (f : Flavor) (assignments : List (Column × Expr)) :
    Except Failure Template :=
  if q.isSliced then .error .updateAfterSlice
  else .ok (.ofPieces (f.update q.table assignments q.condition))

def deleteTemplate (q : Query) (f : Flavor) : Except Failure Template :=
  if q.isSliced then .error .deleteAfterSlice
  else .ok (.ofPieces (f.delete q.table q.condition))

end Query

end PreparedSql
