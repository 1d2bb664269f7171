import PreparedSql.Action
import PreparedSql.Expr.Site

/-! The parameters of a query, in the order in which they were first met. No
two of them share a name or a token. -/
namespace PreparedSql

structure Registry where
  params : List Param := []
  deriving DecidableEq

namespace Registry

def get? (r : Registry) (name : String) : Option Param :=
  r.params.find? (·.name == name)

def byToken? (r : Registry) (token : String) : Option Param :=
  r.params.find? (·.token == token)

def names (r : Registry) : List String :=
  r.params.map Param.name

def size (r : Registry) : Nat :=
  r.params.length

/-- Attaches a parameter and says whether it is new. Another parameter must
not hold its name. -/
def register (p : Param) : Action Registry Bool := do
  let r ← get
  if (r.byToken? p.token).isSome then return false
  if (r.get? p.name).isSome then throw (.duplicateParameterName p.name)
  set ({ params := r.params ++ [p] } : Registry)
  Action.note .trace ("Registered bind parameter `" ++ p.name ++ "`")
  return true

/-- The visitor that attaches what it meets. -/
def visitor : Visitor (Action Registry) where
  types := pure .empty
  visit p _ := discard (register p)

/-- Attaches every parameter of an expression. -/
def registerExpr (e : Expr) : Action Registry Unit :=
  e.walk visitor {}

end Registry

end PreparedSql
