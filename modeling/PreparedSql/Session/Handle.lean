/-! Handles of connections. A handle identifies a physical connection as long
as somebody holds it; clones hold the same handle. -/
namespace PreparedSql

structure Handle where
  id : Nat
  deriving DecidableEq, Repr

def Handle.inspect (h : Handle) : String :=
  "ConnectionHandle(" ++ toString h.id ++ ")"

/-- How often each handle is held, and the next one to be made. -/
structure Handles where
  next : Nat := 1
  holds : Nat → Nat := fun _ => 0

namespace Handles

/-- A handle that nobody held before. -/
def make (hs : Handles) : Handle × Handles :=
  (⟨hs.next⟩,
    { next := hs.next + 1, holds := fun id => if id = hs.next then 1 else hs.holds id })

/-- Somebody else holds the handle too. -/
def clone (hs : Handles) (h : Handle) : Handles :=
  { hs with holds := fun id => if id = h.id then hs.holds id + 1 else hs.holds id }

/-- Somebody lets go of the handle. -/
def drop (hs : Handles) (h : Handle) : Handles :=
  { hs with holds := fun id => if id = h.id then hs.holds id - 1 else hs.holds id }

/-- Somebody holds the handle. -/
def isAlive (hs : Handles) (h : Handle) : Bool :=
  hs.holds h.id != 0

end Handles

end PreparedSql
