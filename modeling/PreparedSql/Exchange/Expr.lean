import PreparedSql.Exchange.Schema
import PreparedSql.Expr.Basic
import PreparedSql.Param.Argument

/-! Expressions as plain data. Models and parameters are referred to by name,
so reading an expression needs to know what is named. -/
namespace PreparedSql

/-- What names refer to. -/
structure Scope where
  models : Named Model := {}
  params : Named Param := {}
  /-- The model whose columns need no name in front. -/
  model : Option Model := none

instance : OfData BinaryOperator where
  ofData? d := do BinaryOperator.ofLookupName? (← ofData? d)

instance : OfData UnaryOperator where
  ofData?
    | .text "not" => some .not
    | .text "isnull" => some .isNull
    | .text "isnotnull" => some .isNotNull
    | .text "neg" => some .negative
    | _ => none

/-- A parameter and what is declared of it. Its token is its name in the scope,
between angle brackets. -/
def Param.ofPlain? (id : String) (d : Data) : Option (Param × Typing) := do
  let token := "<" ++ id ++ ">"
  let name ← d.get? "name"
  let p := match (← d.get? "size" : Option Nat) with
    | some size => Param.array token name size
    | none => Param.scalar token name
  return (p, { fieldType := ← d.get? "type" })

/-- A member of an application's type as a value; a decimal takes its own scale. -/
def Value.ofPlainNative? (d : Data) : Option Value :=
  (ofPlain? d).map fun
    | .decimal (some x) _ _ => Native.toValue .decimal x
    | v => v

namespace Scope

/-- A model by name. -/
def model? (s : Scope) (d : Data) : Option Model := do
  s.models.get? (← ofData? d)

/-- A parameter by name. -/
def param? (s : Scope) (d : Data) : Option Param := do
  s.params.get? (← ofData? d)

/-- A column by name; the name of another model stands in front, with a point. -/
def column? (s : Scope) (d : Data) : Option Column := do
  let name : String ← ofData? d
  let (owner, rest) := Text.spanWhile (· != '.') name
  let find (m : Model) (name : String) : Option Column := m.columns.find? (·.name == name)
  match rest.toList with
  | [] => find (← s.model) name
  | _ :: name => find (← s.models.get? owner) (String.ofList name)

/-- An end of a slice. -/
def bound? (s : Scope) : Data → Option Bound
  | .record [("param", d)] | .record [("owned", d)] => (s.param? d).map .param
  | .record [("i32", d)] => (ofData? d).map .ofInt
  | .record [(_, d)] | d => (ofData? d).map .row

/-- The upper end of a slice, which may be missing. -/
def upperBound? (s : Scope) (d : Data) : Option (Option Bound) := do
  (← d.get? "high" : Option Data).mapM s.bound?

/-- A list of literals. -/
def literals {α : Type} (value : α → Value) (xs : List α) : Expr :=
  .list (xs.map fun x => .literal (value x))

/-- An expression without others inside. -/
def atom? (s : Scope) (tag : String) (d : Data) : Option Expr :=
  match tag with
  | "col" => (s.column? d).map .column
  | "ref" => (ofData? d).map .reference
  | "param" => (s.param? d).map .param
  | "bound" => (s.bound? d).map .bound
  | "lit" => (ofData? d).map .literal
  | "native" =>
    (Value.ofPlainNative? d).map fun
      | .boolean (some b) => .truth b
      | v => .literal v
  | "str" => (ofData? d).map fun t => .literal (.varchar (some t))
  | "bool" => (ofData? d).map .truth
  | "raw" => (ofData? d).map .raw
  | "ints" => (ofData? d).map (literals fun n => .int .int64 (some n))
  | "strs" => (ofData? d).map (literals fun t => .varchar (some t))
  | _ => none

mutual

def expr? (s : Scope) : Data → Option Expr
  | .record [("l", l), ("op", op), ("r", r)] => do
    return .binary (← ofData? op) (← expr? s l) (← expr? s r)
  | .record [("un", op), ("x", e)] => do return .unary (← ofData? op) (← expr? s e)
  | .record [("list", .list items)] => do return .list (← exprs? s items)
  | .record [("between", .list [x, low, high])] => do
    return .binary .between (← expr? s x) (.list [← expr? s low, ← expr? s high])
  | .record [("case", .list whens), ("else", .null)] | .record [("case", .list whens)] => do
    return .cases (← branches? s whens) none
  | .record [("case", .list whens), ("else", e)] => do
    return .cases (← branches? s whens) (some (← expr? s e))
  | .record [("asc", e)] => do return .ordered .ascending (← expr? s e)
  | .record [("desc", e)] => do return .ordered .descending (← expr? s e)
  | .record [(tag, d)] => s.atom? tag d
  | _ => none

def exprs? (s : Scope) : List Data → Option (List Expr)
  | [] => some []
  | d :: ds => do return (← expr? s d) :: (← exprs? s ds)

def branches? (s : Scope) : List Data → Option (List (Expr × Expr))
  | [] => some []
  | .list [condition, e] :: ds => do
    return (← expr? s condition, ← expr? s e) :: (← branches? s ds)
  | _ => none

end

/-- An argument; a row of a model stands for its key. -/
def argument? (s : Scope) : Data → Option Argument
  | .record [("native", d)] => (Value.ofPlainNative? d).map .value
  | .record [("reference", d)] => (ofData? d).map .reference
  | .record [("row", row), ("row_of", m)] => do
    return .reference ((← s.model? m).keyOf (← ofData? row))
  | d => (ofData? d).map .value

/-- Arguments by name. -/
def arguments? (s : Scope) : List (String × Data) → Option Arguments := fun entries => do
  return Named.ofList (← entries.mapM fun (name, d) => do return (name, ← s.argument? d))

/-- The assignments of an update. -/
def assignments? (s : Scope) (d : Data) : Option (List (Column × Expr)) := do
  let entries : List (Data × Data) ← ofData? d
  entries.mapM fun (c, e) => do return (← s.column? c, ← s.expr? e)

/-- A scope of models and parameters, and what is declared of the parameters. -/
def ofPlain? (d : Data) : Option (Scope × Types) := do
  let models ← d.get? "models"
  let params : Named Data ← d.get? "params"
  let params ← params.entries.mapM fun (id, p) => do return (id, ← Param.ofPlain? id p)
  let types := params.foldl (fun ts (_, p, typing) => ts.set p.token typing) Types.empty
  return ({ models := models, params := Named.ofList (params.map fun (id, p, _) => (id, p)) }, types)

end Scope

end PreparedSql
