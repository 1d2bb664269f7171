import PreparedSql.Query.Set

/-! Managers of prepared query sets. A manager builds and prepares a query set
once for every key and database, and hands it out from then on. -/
namespace PreparedSql

structure Manager where
  model : Model
  /-- Prepared query sets by key and database, each pair once. -/
  entries : List ((String × Vendor) × QuerySet) := []

/-- A manager and what queries share. -/
structure Managed where
  store : Store
  manager : Manager

namespace Manager

def find? (m : Manager) (key : String) (v : Vendor) : Option QuerySet :=
  (m.entries.find? (·.1 == (key, v))).map (·.2)

def size (m : Manager) : Nat :=
  m.entries.length

def clear (m : Manager) : Manager :=
  { m with entries := [] }

/-- Keys and databases, as messages show them. -/
def labels (m : Manager) : List String :=
  m.entries.map fun ((key, v), _) => key ++ "@" ++ v.name

/-- Keeps a query set under a key for a database, unless one is kept there;
answers the one that is kept. -/
def keep (m : Manager) (key : String) (v : Vendor) (s : QuerySet) : QuerySet × Manager :=
  match m.find? key v with
  | some found => (found, m)
  | none => (s, { m with entries := m.entries ++ [((key, v), s)] })

def withStore {α : Type} (a : Action Store α) : Action Managed α :=
  a.zoom Managed.store fun store s => { s with store := store }

/-- The query set prepared under a key for a database; builds it from all rows
of the model where there is none. -/
def getOrPrepare (key : String) (v : Vendor) (build : QuerySet → Action Store QuerySet) :
    Action Managed QuerySet := do
  let s ← get
  match s.manager.find? key v with
  | some found => return found
  | none =>
    let built ← withStore (QuerySet.ofModel s.manager.model >>= build)
    let prepared ← withStore (built.prepareFor v)
    let name := (prepared.compiled?.map (·.artifact.name)).getD ""
    Action.note .debug ("Prepared `" ++ key ++ "` for " ++ v.name ++ ": " ++ name)
    let s ← get
    let (kept, manager) := s.manager.keep key v prepared
    set { s with manager := manager }
    return kept

end Manager

end PreparedSql
