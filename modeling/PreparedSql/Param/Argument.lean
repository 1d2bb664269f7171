import PreparedSql.Failure.Basic
import PreparedSql.Named
import PreparedSql.Param.Basic
import PreparedSql.Param.Registry
import PreparedSql.Schema.Cleaning
import PreparedSql.Sql.Literal

/-! Arguments: the values that an execution supplies for the parameters of a
query, by name. Each is cleaned by the type of its parameter; an array is
filled up with NULL to its size, so that the statement keeps its shape. -/
namespace PreparedSql

/-- A value, or the key of a row that is referred to. -/
inductive Argument where
  | value (v : Value)
  | reference (key : Value)

def Argument.carried : Argument → Value
  | value v | reference v => v

/-- Arguments by name. -/
abbrev Arguments := Named Argument

namespace Param

/-- The refusal of a value, with its literal. Without one there is nothing to report but this. -/
def refusal (p : Param) (v : Value) (reason : Reason) : Failure :=
  match Flavor.generic.literal v with
  | .ok text => .invalidParameterType p.name text reason
  | .error failure => failure

def cleanOne (p : Param) (t : FieldType) (nullable : Bool) (v : Value) : Except Failure Value :=
  (t.clean v nullable).mapError (p.refusal v)

/-- The items that a value supplies for an array. -/
def items (p : Param) (v : Value) : Except Failure (List Value) :=
  match v with
  | .list (some items) _ => .ok items
  | .list none _ | .null => .ok []
  | v => .error (p.refusal v .listRequired)

/-- The values for the placeholders of a parameter, as many as it has. -/
def clean (p : Param) (types : Types) (a : Argument) : Except Failure (List Value) := do
  match types.fieldType? p with
  | none => throw (.missingParameterType p.name)
  | some t =>
    let nullable := types.isNullable p
    match p.size with
    | none => return [← p.cleanOne t nullable a.carried]
    | some size =>
      let items ← p.items a.carried
      if size < items.length then throw (.arraySizeExceeded p.name size items.length)
      let cleaned ← items.mapM (p.cleanOne t nullable)
      return cleaned ++ List.replicate (size - cleaned.length) t.valuePrototype

end Param

/-- Cleaned values by parameter name. -/
abbrev CleanedArguments := List (String × List Value)

namespace Registry

/-- Cleans every argument. The arguments have to name exactly the parameters. -/
def cleanArguments (r : Registry) (types : Types) (as : Arguments) :
    Except Failure CleanedArguments := do
  if as.size ≠ r.size ∨ !r.names.all as.contains then
    throw (.incorrectBindParameter (r.names.mergeSort (· ≤ ·)) (as.names.mergeSort (· ≤ ·)))
  r.params.filterMapM fun p =>
    match as.get? p.name with
    | none => pure none
    | some a => do return some (p.name, ← p.clean types a)

end Registry

end PreparedSql
