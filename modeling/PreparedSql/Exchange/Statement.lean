import PreparedSql.Action
import PreparedSql.Exchange.Expr
import PreparedSql.Expr.Site
import PreparedSql.Prepared.Execution

/-! Templates, compiled statements and executions as plain data. -/
namespace PreparedSql

/-- A parameter is known by its token. -/
instance : ToData Param := ⟨fun p => .text p.token⟩

instance : ToData Bound where
  toData
    | .row n => .text (toString n)
    | .param p => .tagged "param" p

instance : ToData Hole where
  toData
    | .literal v => .tagged "value" v
    | .element token index => .record [("element", toData index), ("token", toData token)]
    | .span low high => .tagged "span" (low, high)

/-- A hole of a scalar parameter need not give the index. -/
def Hole.ofPlain? (s : Scope) : Data → Option Hole
  | .record [("value", v)] => (ofData? v).map .literal
  | .record [("token", t)] => do return .element (← ofData? t) 0
  | .record [("element", i), ("token", t)] => do return .element (← ofData? t) (← ofData? i)
  | .record [("span", .list [low, high])] => do return .span (← s.bound? low) (← s.bound? high)
  | _ => none

instance : ToData Lookup where
  toData
    | .none => .text "none"
    | .binary op => .text ("binary:" ++ op.lookupName)
    | .unary .negative => .text "unary:Negative"
    | .unary .not => .text "unary:Not"
    | .unary .isNull => .text "unary:IsNull"
    | .unary .isNotNull => .text "unary:IsNotNull"
    | .slice => .text "slice"

instance : ToItems Site := ⟨fun s => [toData s.lookup, toData s.target, toData s.nullable]⟩

instance : ToData Slot where
  toData s := match s.source with
    | .element token name index => toData (token, name, index, s.fieldType)
    | .span low high => toData (low, high, s.fieldType)

instance : ToData Artifact where
  toData a := .record [
    ("body", toData a.body),
    ("display", toData a.display),
    ("fixed_params", toData a.fixed),
    ("name", toData a.name),
    ("names", toData a.names),
    ("params_order", toData a.order),
    ("positions", toData a.positions),
    ("slots", toData a.slots),
    ("statement_sql", toData a.statement),
    ("vendor", toData a.vendor.name)]

instance : ToData Execution where
  toData e := .record [
    ("arguments", toData e.arguments),
    ("cleanup", toData e.cleanup),
    ("setup", toData e.setup),
    ("sql", toData e.statement)]

/-- A parameter and what is known of it. -/
def Param.toPlain (types : Types) (p : Param) : Data :=
  .record [
    ("debug", toData (types.inspect p)),
    ("is_array", toData p.isArray),
    ("name", toData p.name),
    ("nullable", toData (types.isNullable p)),
    ("size", toData p.slots),
    ("type", toData (types.fieldType? p))]

/-- A line of the journal. -/
instance : ToData Record where
  toData r :=
    let level := match r.level with
      | .trace => "TRACE"
      | .debug => "DEBUG"
      | .warn => "WARN"
      | .error => "ERROR"
    toData (level, r.text)

end PreparedSql
