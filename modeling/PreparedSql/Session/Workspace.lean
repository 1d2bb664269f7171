import PreparedSql.Session.Execution
import PreparedSql.Session.Manager
import PreparedSql.Named

/-! Workspaces: what a program holds that talks to several databases. Query
sets share one store; connections, handles, pools, registries and managers have
names. An action on one connection and one pool is an action on the whole. -/
namespace PreparedSql

structure Workspace (κ : Type) where
  store : Store := {}
  handles : Handles := {}
  queries : Named QuerySet := {}
  registries : Named Registry := {}
  pools : Named Pool := {}
  /-- Handles held apart from the connections. -/
  held : Named Handle := {}
  connections : Named κ := {}
  managers : Named Manager := {}

namespace Workspace

variable {κ α : Type}

/-- The pool with a name, which exists as soon as somebody asks for it. -/
def pool (w : Workspace κ) (name : String) : Pool :=
  (w.pools.get? name).getD {}

/-- The registry with a name, which exists as soon as somebody asks for it. -/
def registry (w : Workspace κ) (name : String) : Registry :=
  (w.registries.get? name).getD {}

def onStore (a : Action Store α) : Action (Workspace κ) α :=
  a.zoom Workspace.store fun store w => { w with store := store }

def onPool (name : String) (a : Action Pool α) : Action (Workspace κ) α :=
  a.zoom (·.pool name) fun p w => { w with pools := w.pools.put name p }

def onRegistry (name : String) (a : Action Registry α) : Action (Workspace κ) α :=
  a.zoom (·.registry name) fun r w => { w with registries := w.registries.put name r }

/-- An action on a connection and a pool, both by name. -/
def onConnection (name pool : String) (c : κ) (a : Action (Session κ) α) :
    Action (Workspace κ) α :=
  a.zoom
    (fun w => { store := w.store, handles := w.handles, pool := w.pool pool, connection := c })
    fun s w => { w with
      store := s.store
      handles := s.handles
      pools := w.pools.put pool s.pool
      connections := w.connections.put name s.connection }

/-- An action on a manager by name. -/
def onManager (name : String) (m : Manager) (a : Action Managed α) : Action (Workspace κ) α :=
  a.zoom (fun w => ⟨w.store, m⟩) fun s w =>
    { w with store := s.store, managers := w.managers.put name s.manager }

/-- Puts a new query set under a name; when it fails, the name stays as it is. -/
def keepQuery (name : String) (a : Action (Workspace κ) QuerySet) :
    Action (Workspace κ) QuerySet := do
  let s ← a
  modify fun w => { w with queries := w.queries.put name s }
  return s

/-- A handle that nobody held before. -/
def newHandle : Action (Workspace κ) Handle := do
  let (h, handles) := (← get).handles.make
  modify fun w => { w with handles := handles }
  return h

/-- Somebody else holds the handle too. -/
def share (h : Handle) : Action (Workspace κ) Handle := do
  modify fun w => { w with handles := w.handles.clone h }
  return h

/-- Lets go of the handle with a name; says whether there was one. -/
def letGo (name : String) : Action (Workspace κ) Bool := do
  match (← get).held.get? name with
  | none => return false
  | some h =>
    modify fun w => { w with handles := w.handles.drop h, held := w.held.erase name }
    return true

/-- Keeps a handle under a name, in the place of the one there. -/
def hold (name : String) (h : Handle) : Action (Workspace κ) Unit := do
  discard (letGo name)
  modify fun w => { w with held := w.held.put name h }

variable [Connection κ]

/-- Drops the connection with a name; says whether there was one. -/
def drop (name : String) : Action (Workspace κ) Bool := do
  match (← get).connections.get? name with
  | none => return false
  | some c =>
    modify fun w => { w with
      handles := w.handles.drop (Connection.handle c)
      connections := w.connections.erase name }
    return true

/-- Opens a connection with a handle of its own, in the place of the one with the name. -/
def connect (name : String) (make : Handle → κ) : Action (Workspace κ) Unit := do
  let h ← newHandle
  discard (drop name)
  modify fun w => { w with connections := w.connections.put name (make h) }

/-- Closes a connection; a pool forgets what was prepared on it. -/
def disconnect (name pool : String) (c : κ) : Action (Workspace κ) Unit := do
  onPool pool (Pool.close (Connection.handle c))
  discard (drop name)

/-- The number of connections that a pool knows. -/
def countPool (name : String) : Action (Workspace κ) Nat := do
  let w ← get
  let (n, p) := (w.pool name).count w.handles
  set { w with pools := w.pools.put name p }
  return n

/-- Makes sure that a pool knows a name to be prepared on a connection. -/
def ensurePrepared (pool : String) (h : Handle) (name : String)
    (prepare : Action (Workspace κ) Unit) : Action (Workspace κ) Bool :=
  Pool.ensure (fun w => (w.pool pool, w.handles))
    (fun p w => { w with pools := w.pools.put pool p }) h name prepare

end Workspace

end PreparedSql
