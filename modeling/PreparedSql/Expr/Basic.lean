import PreparedSql.Param.Basic
import PreparedSql.Schema.Column

/-! Expressions of a query. -/
namespace PreparedSql

inductive BinaryOperator where
  | multiplication | division | remainder | addition | subtraction
  | like | notLike
  | equal | notEqual | less | greater | lessEqual | greaterEqual
  | isIn | between
  | contains | icontains | startsWith | endsWith | iexact
  | and | or
  deriving DecidableEq, Repr

inductive UnaryOperator where
  | negative | not | isNull | isNotNull
  deriving DecidableEq, Repr

/-- The direction of an ordering. -/
inductive Order where
  | ascending | descending
  deriving DecidableEq, Repr

def Order.reversed : Order → Order
  | ascending => descending
  | descending => ascending

inductive Expr where
  | column (c : Column)
  | reference (c : ColumnRef)
  | param (p : Param)
  | bound (b : Bound)
  /-- A literal, kept apart from the text of the statement. -/
  | literal (v : Value)
  /-- A truth value written into the statement. -/
  | truth (b : Bool)
  | raw (sql : String)
  | binary (op : BinaryOperator) (left right : Expr)
  | unary (op : UnaryOperator) (operand : Expr)
  | list (items : List Expr)
  | cases (whens : List (Expr × Expr)) (otherwise : Option Expr)
  | ordered (order : Order) (operand : Expr)

namespace BinaryOperator

def isLogical : BinaryOperator → Bool
  | and | or => true
  | _ => false

/-- Operators that look for a text in a text. -/
def isPattern : BinaryOperator → Bool
  | contains | icontains | startsWith | endsWith | iexact => true
  | _ => false

def isArithmetic : BinaryOperator → Bool
  | multiplication | division | remainder | addition | subtraction => true
  | _ => false

/-- The name of the comparison as callers write it. -/
def lookupName : BinaryOperator → String
  | equal => "exact"
  | notEqual => "ne"
  | less => "lt"
  | greater => "gt"
  | lessEqual => "lte"
  | greaterEqual => "gte"
  | isIn => "in"
  | between => "range"
  | contains => "contains"
  | icontains => "icontains"
  | startsWith => "startswith"
  | endsWith => "endswith"
  | iexact => "iexact"
  | like => "like"
  | notLike => "not_like"
  | multiplication => "mul"
  | division => "div"
  | remainder => "mod"
  | addition => "add"
  | subtraction => "sub"
  | and => "and"
  | or => "or"

def all : List BinaryOperator :=
  [multiplication, division, remainder, addition, subtraction, like, notLike, equal, notEqual,
    less, greater, lessEqual, greaterEqual, isIn, between, contains, icontains, startsWith,
    endsWith, iexact, and, or]

def ofLookupName? (name : String) : Option BinaryOperator :=
  all.find? fun op => op.lookupName == name

/-- A greater number binds more closely. -/
def precedence : BinaryOperator → Nat
  | or => 100
  | and => 200
  | equal | notEqual | less | greater | lessEqual | greaterEqual | iexact => 300
  | like | notLike | isIn | between | contains | icontains | startsWith | endsWith => 400
  | subtraction | addition => 800
  | multiplication | division | remainder => 900

end BinaryOperator

namespace UnaryOperator

def precedence : UnaryOperator → Nat
  | negative => 1250
  | not => 250
  | isNull | isNotNull => 400

end UnaryOperator

namespace Expr

/-- What is no operator binds most closely. -/
def atomPrecedence : Nat := 1000000

/-- How closely the expression holds together; text copied verbatim may hold anything. -/
def precedence : Expr → Nat
  | raw _ => 0
  | binary op _ _ => op.precedence
  | unary op _ => op.precedence
  | ordered _ e => precedence e
  | _ => atomPrecedence

def isOrdered : Expr → Bool
  | ordered _ _ => true
  | _ => false

/-- The expression is a column that accepts NULL. -/
def isNullable : Expr → Bool
  | column c => c.nullable
  | _ => false

mutual

/-- The field type that the expression takes after, when it is like a column. -/
def outputType (types : Types) : Expr → Option FieldType
  | column c => some c.fieldType
  | param p => types.fieldType? p
  | binary op l r =>
    if op.isArithmetic then (outputType types l).or (outputType types r) else some .boolean
  | unary op e => if op = .negative then outputType types e else some .boolean
  | cases whens otherwise => (branchType types whens).or (otherwiseType types otherwise)
  | ordered _ e => outputType types e
  | _ => none

/-- The type of the first branch that has one. -/
def branchType (types : Types) : List (Expr × Expr) → Option FieldType
  | [] => none
  | (_, e) :: rest => (outputType types e).or (branchType types rest)

def otherwiseType (types : Types) : Option Expr → Option FieldType
  | none => none
  | some e => outputType types e

end

end Expr

end PreparedSql
