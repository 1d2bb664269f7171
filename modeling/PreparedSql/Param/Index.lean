import PreparedSql.Named
import PreparedSql.Param.Registry

/-! A registry with an index. Beside the parameters it keeps the place of each one under its name
and under its token, so that none has to be searched for. -/
namespace PreparedSql

structure IndexedRegistry where
  params : List Param := []
  byName : Named Nat := {}
  byToken : Named Nat := {}

namespace IndexedRegistry

def get? (r : IndexedRegistry) (name : String) : Option Param :=
  (r.byName.get? name).bind fun place => r.params[place]?

def byToken? (r : IndexedRegistry) (token : String) : Option Param :=
  (r.byToken.get? token).bind fun place => r.params[place]?

/-- Attaches a parameter and says whether it is new. Another parameter must not hold its name. -/
def register (p : Param) : Action IndexedRegistry Bool := do
  let r ← get
  if r.byToken.contains p.token then return false
  if r.byName.contains p.name then throw (.duplicateParameterName p.name)
  let place := r.params.length
  set ({ params := r.params ++ [p], byName := r.byName.put p.name place,
         byToken := r.byToken.put p.token place } : IndexedRegistry)
  Action.note .trace ("Registered bind parameter `" ++ p.name ++ "`")
  return true

end IndexedRegistry

end PreparedSql
