import PreparedSql.Expr.Writing

/-! Statements that read or change rows, as templates. -/
namespace PreparedSql

/-- A selection: what it projects, of which rows, in which order, and which
window of them. -/
structure Selection where
  table : TableRef
  distinct : Bool := false
  /-- Projected expressions, each with an alias or none. -/
  columns : List (Expr × Option String)
  condition : Option Expr := none
  orderBy : List Expr := []
  low : Bound := .zero
  high : Option Bound := none

namespace Selection

/-- Some rows at the front or the end are left out. -/
def isSliced (s : Selection) : Bool :=
  s.high.isSome || !s.low.isZero

end Selection

namespace Flavor

/-- The window of a slice. Two row numbers are subtracted at once; when a
parameter takes part, the number of rows is a hole. MySQL has no offset without
a limit, so the greatest limit stands for none. -/
def window (f : Flavor) (low : Bound) (high : Option Bound) : List Piece :=
  match high, low with
  | none, low =>
    if low.isZero then []
    else
      let word := match f with
        | generic | postgres => "\nOFFSET "
        | mysql => "\nLIMIT 18446744073709551615 OFFSET "
      .text word :: low.write
  | some (.row high), .row low =>
    [.text ("\nLIMIT " ++ toString (high - low))]
      ++ if 0 < low then [.text ("\nOFFSET " ++ toString low)] else []
  | some high, low =>
    if low.isZero then .text "\nLIMIT " :: high.write
    else .text "\nLIMIT " :: .hole (.span low high) :: .text "\nOFFSET " :: low.write

/-- A condition behind its word. -/
def whereClause (f : Flavor) : Option Expr → List Piece
  | none => []
  | some condition => .text "\nWHERE " :: condition.write { flavor := f }

def projected (f : Flavor) (column : Expr × Option String) : List Piece :=
  column.1.write { flavor := f } ++
    match column.2 with
    | some alias_ => [.text (" AS " ++ f.identifier alias_)]
    | none => []

def orderClause (f : Flavor) (orderBy : List Expr) : List Piece :=
  if orderBy.isEmpty then []
  else .text "\nORDER BY " ::
    Piece.separated ", " (orderBy.map (·.write { flavor := f, fragment := .orderings }))

def select (f : Flavor) (s : Selection) : List Piece :=
  .text (if s.distinct then "SELECT DISTINCT " else "SELECT ")
    :: (Piece.separated ", " (s.columns.map f.projected)
      ++ .text ("\nFROM " ++ f.table s.table) :: (f.whereClause s.condition
      ++ (f.orderClause s.orderBy ++ f.window s.low s.high)))

/-- Counts the rows of a selection. A window or the absence of duplicates is
settled inside, before counting. -/
def selectCount (f : Flavor) (s : Selection) : List Piece :=
  if s.isSliced || s.distinct then
    .text "SELECT COUNT(*) FROM (" ::
      (f.select s ++ [.text (") AS " ++ f.identifier "subquery")])
  else f.select { s with columns := [(.raw "COUNT(*)", none)], orderBy := [] }

def assignment (f : Flavor) (a : Column × Expr) : List Piece :=
  .text (f.identifier a.1.name ++ " = ") :: a.2.write { flavor := f }

def update (f : Flavor) (t : TableRef) (assignments : List (Column × Expr))
    (condition : Option Expr) : List Piece :=
  .text ("UPDATE " ++ f.table t ++ "\nSET ")
    :: (Piece.separated ", " (assignments.map f.assignment) ++ f.whereClause condition)

def delete (f : Flavor) (t : TableRef) (condition : Option Expr) : List Piece :=
  .text ("DELETE FROM " ++ f.table t) :: f.whereClause condition

end Flavor

end PreparedSql
