import PreparedSql.Action
import PreparedSql.Session.Handle

/-! The pool of prepared statements: which names are prepared on which
connection. Connections that nobody holds any more are forgotten when a new one
comes in and when the pool is counted. -/
namespace PreparedSql

structure Pool where
  /-- The names prepared on a connection, each connection and name once. -/
  entries : List (Handle × List String) := []

namespace Pool

/-- The names prepared on a connection, when it is known. -/
def names? (p : Pool) (h : Handle) : Option (List String) :=
  (p.entries.find? (·.1 == h)).map (·.2)

def contains (p : Pool) (h : Handle) (name : String) : Bool :=
  ((p.names? h).getD []).contains name

/-- Names prepared on a connection. -/
def preparedOn (p : Pool) (h : Handle) : Nat :=
  ((p.names? h).getD []).length

/-- Forgets the connections that nobody holds. -/
def prune (p : Pool) (hs : Handles) : Pool :=
  ⟨p.entries.filter fun (h, _) => hs.isAlive h⟩

def insertName (name : String) (names : List String) : List String :=
  if names.contains name then names else names ++ [name]

/-- Notes that a name is prepared on a connection. -/
def record (p : Pool) (hs : Handles) (h : Handle) (name : String) : Pool :=
  match p.names? h with
  | some _ =>
    ⟨p.entries.map fun (k, names) => (k, if k = h then insertName name names else names)⟩
  | none => ⟨(p.prune hs).entries ++ [(h, [name])]⟩

/-- Forgets a connection. -/
def forget (p : Pool) (h : Handle) : Pool :=
  ⟨p.entries.filter fun (k, _) => k != h⟩

/-- The number of known connections, after forgetting those nobody holds. -/
def count (p : Pool) (hs : Handles) : Nat × Pool :=
  let p := p.prune hs
  (p.entries.length, p)

/-- Notes what happens to a statement on a connection. -/
def statementLine (name : String) (state : String) (h : Handle) : String :=
  "Statement `" ++ name ++ "` is " ++ state ++ " on connection " ++ toString h.id

/-- Forgets a connection that is closed. -/
def close (h : Handle) : Action Pool Unit := do
  match (← get).names? h with
  | none => pure ()
  | some names =>
    modify (·.forget h)
    Action.note .debug ("Connection " ++ toString h.id ++ " closed, forgetting "
      ++ toString names.length ++ " prepared statements")

/-- Makes sure that a name is prepared on a connection: prepares it, unless the
pool knows it. Says whether it was prepared now. -/
def ensure {σ : Type} (look : σ → Pool × Handles) (put : Pool → σ → σ) (h : Handle) (name : String)
    (prepare : Action σ Unit) : Action σ Bool := do
  if (look (← get)).1.contains h name then
    Action.note .debug (statementLine name "already prepared" h)
    return false
  Action.note .debug (statementLine name "not prepared" h)
  prepare
  modify fun s =>
    let (pool, handles) := look s
    put (pool.record handles h name) s
  return true

/-- The connections and the names prepared on them, as messages show them. -/
def inspect (p : Pool) : String :=
  let entry (e : Handle × List String) : String :=
    toString e.1.id ++ ": \x7b" ++ String.intercalate ", " (e.2.map Text.quoted) ++ "\x7d"
  "\x7b" ++ String.intercalate ", " (p.entries.map entry) ++ "\x7d"

end Pool

end PreparedSql
