import PreparedSql.Expr.Basic

/-! Where parameters stand in an expression, and what that says about them. -/
namespace PreparedSql

/-- How a parameter is compared. -/
inductive Lookup where
  | none
  | binary (op : BinaryOperator)
  | unary (op : UnaryOperator)
  /-- The end of a slice. -/
  | slice
  deriving DecidableEq, Repr

structure Site where
  lookup : Lookup := .none
  /-- The type of the other side of the comparison. -/
  target : Option FieldType := none
  /-- The other side is a column that accepts NULL. -/
  nullable : Bool := false
  deriving DecidableEq, Repr

/-- Receives the parameters of an expression from left to right. What is known
of their types may change on the way. -/
structure Visitor (m : Type → Type) where
  types : m Types
  visit : Param → Site → m Unit

namespace Site

/-- The site of one side of a comparison, as the other side and the site of the
whole comparison make it. -/
def beside (s : Site) (types : Types) (op : BinaryOperator) (other : Expr) : Site :=
  let t := other.outputType types
  { lookup := .binary op
    target := t.or s.target
    nullable := if t.isSome then other.isNullable else s.nullable }

/-- The site of the operand of a unary operator. -/
def under (s : Site) : UnaryOperator → Site
  | .negative => s
  | .not => {}
  | op => { lookup := .unary op }

/-- The members of an explicit list are compared one by one. -/
def ofMember (s : Site) : Site :=
  match s.lookup with
  | .binary .isIn => { s with lookup := .binary .equal }
  | _ => s

/-- The end of a slice is a row number. -/
def sliceEnd : Site :=
  { lookup := .slice, target := some .bigInteger }

end Site

namespace Bound

/-- Visits the parameter that supplies the bound. -/
def walk {m : Type → Type} [Monad m] (visitor : Visitor m) : Bound → m Unit
  | row _ => pure ()
  | param p => visitor.visit p .sliceEnd

end Bound

namespace Expr

variable {m : Type → Type} [Monad m]

mutual

/-- Visits every parameter of the expression, from left to right. -/
def walk (visitor : Visitor m) (s : Site) : Expr → m Unit
  | param p => visitor.visit p s
  | bound b => b.walk visitor
  | binary op l r => do
    if op.isLogical then
      walk visitor {} l
      walk visitor {} r
    else
      let types ← visitor.types
      let right := s.beside types op l
      walk visitor (s.beside types op r) l
      walk visitor right r
  | unary op e => walk visitor (s.under op) e
  | list items => walkItems visitor s.ofMember items
  | cases whens otherwise => do
    let types ← visitor.types
    let target := (branchType types whens).or (otherwiseType types otherwise)
    let site : Site := { target := target.or s.target, nullable := s.nullable }
    walkBranches visitor site whens
    walkOtherwise visitor site otherwise
  | ordered _ e => walk visitor s e
  | column _ | reference _ | literal _ | truth _ | raw _ => pure ()

def walkItems (visitor : Visitor m) (s : Site) : List Expr → m Unit
  | [] => pure ()
  | e :: rest => do
    walk visitor s e
    walkItems visitor s rest

/-- A condition is compared with nothing; a branch is what the whole is. -/
def walkBranches (visitor : Visitor m) (s : Site) : List (Expr × Expr) → m Unit
  | [] => pure ()
  | (condition, e) :: rest => do
    walk visitor {} condition
    walk visitor s e
    walkBranches visitor s rest

def walkOtherwise (visitor : Visitor m) (s : Site) : Option Expr → m Unit
  | none => pure ()
  | some e => walk visitor s e

end

/-- The visitor that collects, with types that stay as they are. -/
def collector (types : Types) : Visitor (StateM (List (Param × Site))) where
  types := pure types
  visit p s := modify (· ++ [(p, s)])

/-- The parameters of the expression with their sites, from left to right. -/
def sites (types : Types) (e : Expr) : List (Param × Site) :=
  ((e.walk (collector types) {}).run []).2

end Expr

end PreparedSql
