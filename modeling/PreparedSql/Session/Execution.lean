import PreparedSql.Prepared.Execution
import PreparedSql.Session.Connection
import PreparedSql.Sql.Definition

/-! Running query sets on a connection. A query set that is being built sends
its statement with the literals in place. A prepared one sends its arguments,
and before them its statement where the pool does not know it. -/
namespace PreparedSql

open Session

namespace QuerySet

variable {κ : Type} [Connection κ] {α : Type}

/-- Rows that are fetched to tell one from many. -/
def fetchedToTell : Nat := 21

/-- The statement of a template for the database behind the connection. -/
def statementFor (template : Flavor → Except Failure Template) : Action (Session κ) String := do
  let v ← vendor
  let t ← Action.ofExcept (template v.flavor)
  Action.ofExcept (t.inline v.flavor)

def loadQuery (read : RowReader α) (q : Query) : Action (Session κ) (List α) := do
  load read (← statementFor fun f => .ok (q.selectTemplate f))

/-- Reads the rows of a changed copy of the query. -/
def loadNarrowed (operation : String) (change : Action Query Unit) (read : RowReader α)
    (s : QuerySet) : Action (Session κ) (List α) := do
  loadQuery read (← withStore (s.narrowed operation change))

/-- The query, when it is still being built. -/
def buildingIn (operation : String) (s : QuerySet) : Action (Session κ) Query :=
  Action.ofExcept (s.stillBuilding operation)

def count (s : QuerySet) : Action (Session κ) (Ranged .uint64) := do
  let q ← s.buildingIn "count"
  let rows ← load LabeledRow.whole (← statementFor fun f => .ok (q.countTemplate f))
  match rows.head?.bind (·.values.head?) with
  | some v => Action.ofExcept (Failure.ofConversion (Native.ofValue (.int .uint64) v))
  | _ => throw .emptyCount

def hasRows (s : QuerySet) : Action (Session κ) Bool := do
  let rows ← s.loadNarrowed "exists" (Query.slice .zero (some (.row 1))) LabeledRow.whole
  return !rows.isEmpty

/-- The only row; fails when there is none or another one. -/
def get (read : RowReader α) (s : QuerySet) : Action (Session κ) α := do
  let change := Query.slice .zero (some (.row fetchedToTell))
  let rows ← s.loadNarrowed "get" change read
  let table := s.query.table.fullName
  match rows with
  | [row] => return row
  | [] => throw (.noMatch table)
  | rows =>
    throw (.manyMatches table (min rows.length (fetchedToTell - 1))
      (fetchedToTell ≤ rows.length))

/-- The first row, by primary key unless ordered. -/
def first (read : RowReader α) (s : QuerySet) : Action (Session κ) (Option α) := do
  let change : Action Query Unit := do
    let q ← MonadState.get
    if q.orderBy.isEmpty && !q.isSliced then
      Query.addOrdering .ascending (.column q.model.primaryKey)
    Query.slice .zero (some (.row 1))
  return (← s.loadNarrowed "first" change read).head?

/-- The last row, by primary key unless ordered. -/
def last (read : RowReader α) (s : QuerySet) : Action (Session κ) (Option α) := do
  let change : Action Query Unit := do
    modify Query.reverse
    Query.slice .zero (some (.row 1))
  return (← s.loadNarrowed "last" change read).head?

/-- The row at an index, when there is one. -/
def atIndex (read : RowReader α) (index : Nat) (s : QuerySet) : Action (Session κ) (Option α) := do
  let change := Query.slice (.row index) (some (.row (Query.addRows index 1)))
  return (← s.loadNarrowed "get_index" change read).head?

def all (read : RowReader α) (s : QuerySet) : Action (Session κ) (List α) := do
  loadQuery read (← s.buildingIn "all")

/-- The rows one by one, failures among them. -/
def iter (read : RowReader α) (s : QuerySet) : Action (Session κ) (List (Except Failure α)) := do
  let q ← s.buildingIn "iter"
  let rows ← fetch (← statementFor fun f => .ok (q.selectTemplate f))
  return rows.map (· >>= read)

/-- Rows of a statement given as text. -/
def raw (read : RowReader α) (statement : String) (s : QuerySet) :
    Action (Session κ) (List α) := do
  let _ ← s.buildingIn "raw"
  load read statement

def update (assignments : List (Column × Expr)) (s : QuerySet) : Action (Session κ) Affected := do
  let q ← s.buildingIn "update"
  execute (← statementFor fun f => q.updateTemplate f assignments)

def delete (s : QuerySet) : Action (Session κ) Affected := do
  let q ← s.buildingIn "delete"
  execute (← statementFor q.deleteTemplate)

/-- Compiles the query for the database behind the connection. -/
def prepare (s : QuerySet) : Action (Session κ) QuerySet := do
  let v ← vendor
  withStore (s.prepareFor v)

end QuerySet

namespace Session

variable {κ : Type} [Connection κ] {α : Type}

/-- Makes sure that a name is prepared on the connection with a handle. -/
def ensurePrepared (h : Handle) (name : String) (prepare : Action (Session κ) Unit) :
    Action (Session κ) Bool :=
  Pool.ensure (fun s => (s.pool, s.handles)) (fun pool s => { s with pool := pool }) h name prepare

/-- Sends a statement and notes it. -/
def sendNoted (statement : String) : Action (Session κ) Unit := do
  Action.note .debug (Text.truncated statement)
  discard (execute statement)

/-- Stages the arguments. When that fails, what was staged is taken back. -/
def stage (e : Execution) : Action (Session κ) Unit :=
  e.setup.forM fun setup => do
    match ← (sendNoted setup).attempt with
    | .ok _ => pure ()
    | .error f =>
      e.cleanup.forM fun cleanup => do
        match ← (execute cleanup).attempt with
        | .ok _ => pure ()
        | .error g =>
          Action.note .warn ("Ignoring the failure of the cleanup: " ++ g.summary)
      throw f

/-- The items up to the first failure. -/
def untilFailure : List (Except Failure α) → List (Except Failure α)
  | [] => []
  | .ok x :: rest => .ok x :: untilFailure rest
  | .error f :: _ => [.error f]

/-- Prepares, stages and executes; answers the rows up to the first failure. -/
def runPrepared (read : RowReader α) (a : Artifact) (e : Execution) :
    Action (Session κ) (List (Except Failure α)) := do
  let h := Connection.handle (← get).connection
  let _ ← ensurePrepared h a.name (sendNoted a.statement)
  stage e
  Action.note .debug (Text.truncated e.statement)
  let rows ← fetch e.statement
  return untilFailure (rows.map (· >>= read))

end Session

namespace QuerySet

variable {κ : Type} [Connection κ] {α : Type}

/-- The rows of a prepared query set, as an action that the first look at them
starts. The arguments are checked before. -/
def stream (read : RowReader α) (arguments : Arguments) (s : QuerySet) :
    Action (Session κ) (Action (Session κ) (List (Except Failure α))) := do
  match s with
  | building _ => throw .queryNotPrepared
  | prepared q c =>
    let types := (← MonadState.get).store.types
    let cleaned ← Action.ofExcept (q.params.cleanArguments types arguments)
    let e ← Action.ofExcept (Prepared.execution c.artifact.vendor c.artifact cleaned)
    let activity := Activity.executing c.artifact.statement
    return do
      match ← (runPrepared read c.artifact e).attempt with
      | .ok items => return items.map (·.mapError (.during activity))
      | .error f => return [.error (.during activity f)]

/-- All rows of a prepared query set. -/
def execute (read : RowReader α) (arguments : Arguments) (s : QuerySet) :
    Action (Session κ) (List α) := do
  let rows ← s.stream read arguments
  Action.ofExcept (collect (← rows))

end QuerySet

namespace Model

variable {κ : Type} [Connection κ]

def createTable (m : Model) (ifNotExists : Bool) : Action (Session κ) Unit := do
  let v ← vendor
  discard (execute (v.flavor.createTable m.table m.columns ifNotExists))

def dropTable (m : Model) (ifExists : Bool) : Action (Session κ) Unit := do
  let v ← vendor
  discard (execute (v.flavor.dropTable m.table ifExists))

/-- Stores rows; without any nothing is sent. -/
def insert (m : Model) (rows : List NamedRow) : Action (Session κ) Affected := do
  if rows.isEmpty then return {}
  let v ← vendor
  match ← Action.ofExcept (v.flavor.insertRows m.table m.columns rows) with
  | some statement => execute statement
  | none => return {}

end Model

/-- Stores one instance. -/
def QuerySet.create {κ : Type} [Connection κ] (row : NamedRow) (s : QuerySet) :
    Action (Session κ) Affected := do
  let q ← s.buildingIn "create"
  q.model.insert [row]

end PreparedSql
