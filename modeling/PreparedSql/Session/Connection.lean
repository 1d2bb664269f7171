import PreparedSql.Query.Set
import PreparedSql.Session.Pool
import PreparedSql.Session.Row

/-! Connections. A connection takes statements one at a time and answers each
with rows and results of commands, or with failures among them. -/
namespace PreparedSql

class Connection (κ : Type) where
  /-- The name of the database behind the connection. -/
  vendorName : κ → String
  handle : κ → Handle
  /-- Sends a statement and answers what the server answers. -/
  run : String → κ → List (Except Failure Answer) × κ

/-- A connection, and what it shares with others. -/
structure Session (κ : Type) where
  store : Store := {}
  handles : Handles := {}
  pool : Pool := {}
  connection : κ

namespace Session

variable {κ : Type} [Connection κ]

/-- An action on what queries share. -/
def withStore {α : Type} (a : Action Store α) : Action (Session κ) α :=
  a.zoom Session.store fun store s => { s with store := store }

/-- The database behind the connection. -/
def vendor : Action (Session κ) Vendor := do
  Action.ofExcept (Vendor.ofName (Connection.vendorName (← get).connection))

/-- Sends a statement. -/
def run (statement : String) : Action (Session κ) (List (Except Failure Answer)) := do
  let s ← get
  let (answers, connection) := Connection.run statement s.connection
  set ({ s with connection := connection } : Session κ)
  return answers

/-- The rows among the answers, and the failures. -/
def rowsOf : List (Except Failure Answer) → List (Except Failure LabeledRow) :=
  List.filterMap fun
    | .ok (.row r) => some (.ok r)
    | .ok (.affected _) => none
    | .error f => some (.error f)

/-- The results of commands among the answers, and the failures. -/
def resultsOf : List (Except Failure Answer) → List (Except Failure Affected) :=
  List.filterMap fun
    | .ok (.row _) => none
    | .ok (.affected a) => some (.ok a)
    | .error f => some (.error f)

/-- All items, or the first failure among them. -/
def collect {α : Type} (items : List (Except Failure α)) : Except Failure (List α) :=
  items.mapM id

/-- Sends a statement for its rows. -/
def fetch (statement : String) : Action (Session κ) (List (Except Failure LabeledRow)) :=
  return rowsOf (← run statement)

/-- Sends a statement for the sum of its results. -/
def execute (statement : String) : Action (Session κ) Affected := do
  let results ← Action.ofExcept (collect (resultsOf (← run statement)))
  return Affected.sum results

/-- Sends a statement and reads all its rows. -/
def load {α : Type} (read : RowReader α) (statement : String) : Action (Session κ) (List α) := do
  let rows ← fetch statement
  Action.ofExcept (collect (rows.map (· >>= read)))

end Session

end PreparedSql
