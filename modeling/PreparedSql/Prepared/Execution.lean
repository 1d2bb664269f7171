import PreparedSql.Param.Argument
import PreparedSql.Prepared.Artifact

/-! One execution of a prepared statement: the arguments by position, and the
statements that hand them over. -/
namespace PreparedSql

/-- The statements of one execution, to be sent in the order setup, statement. -/
structure Execution where
  setup : Option String
  cleanup : Option String
  statement : String
  arguments : List Value

namespace Prepared

def valuesOf (cleaned : CleanedArguments) (name : String) : List Value :=
  ((cleaned.find? (·.1 == name)).map (·.2)).getD []

/-- The row number that a bound stands for; row numbers stop at the greatest
whole number with sign. -/
def boundValue (cleaned : CleanedArguments) : Bound → Except Failure Int
  | .row n => .ok (min n IntKind.int64.greatest)
  | .param p =>
    match valuesOf cleaned p.name with
    | [] => .error (.missingBound p.name)
    | v :: _ =>
      match Native.ofValue (.int .int64) v with
      | .ok n => .ok n.value
      | .error fault => .error (.conversion fault)

/-- The value that feeds a slot. A span has no fewer than zero rows. -/
def slotValue (cleaned : CleanedArguments) : SlotSource → Except Failure Value
  | .element _ name index =>
    match (valuesOf cleaned name)[index]? with
    | some v => .ok v
    | none => .error (.missingElement name index)
  | .span low high => do
    let high ← boundValue cleaned high
    let low ← boundValue cleaned low
    return .int .int64 (some (Ranged.clamp .int64 (max 0 (high - low))))

/-- The argument at a position. -/
def argumentAt (a : Artifact) (cleaned : CleanedArguments) (position : Nat) :
    Except Failure Value :=
  match a.slots[position]? with
  | none => .error (.missingSlot a.name position)
  | some slot => slotValue cleaned slot.source

/-- The statements that execute an artifact with cleaned arguments. -/
def execution (v : Vendor) (a : Artifact) (cleaned : CleanedArguments) :
    Except Failure Execution := do
  let arguments ← a.positions.mapM (argumentAt a cleaned)
  let literals ← arguments.mapM v.flavor.literal
  return {
    setup := v.setup? literals
    cleanup := v.cleanup? arguments.length
    statement := v.execute a.name literals
    arguments := arguments }

end Prepared

end PreparedSql
