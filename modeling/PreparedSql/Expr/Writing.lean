import PreparedSql.Expr.Basic
import PreparedSql.Sql.Template

/-! Writing expressions. An operand is put in parentheses when it does not
hold together more closely than the operator around it; the left operand of a
binary operator may be of the same precedence. -/
namespace PreparedSql

/-- Parts of a statement that change how an expression is written. -/
inductive Fragment where
  | plain
  /-- The two ends of a range test. -/
  | rangeEnds
  /-- The list of orderings, where directions are written. -/
  | orderings
  deriving DecidableEq, Repr

/-- What the writing of an expression depends on. -/
structure Manner where
  flavor : Flavor
  qualify : Bool := false
  fragment : Fragment := .plain

namespace BinaryOperator

/-- What stands between the operands. -/
def between? : BinaryOperator → Option String
  | multiplication => some " * "
  | division => some " / "
  | remainder => some " % "
  | addition => some " + "
  | subtraction => some " - "
  | like => some " LIKE "
  | notLike => some " NOT LIKE "
  | equal => some " = "
  | notEqual => some " != "
  | less => some " < "
  | lessEqual => some " <= "
  | greater => some " > "
  | greaterEqual => some " >= "
  | isIn => some " IN "
  | between => some " BETWEEN "
  | and => some " AND "
  | or => some " OR "
  | contains | icontains | startsWith | endsWith | iexact => none

/-- The right operand brings parentheses of its own, or needs none. -/
def closesRight : BinaryOperator → Bool
  | isIn | between => true
  | _ => false

/-- Whether any text may stand before and behind the text that is looked for. -/
def wildcards : BinaryOperator → Bool × Bool
  | startsWith => (false, true)
  | endsWith => (true, false)
  | _ => (true, true)

end BinaryOperator

namespace Order

def text : Order → String
  | ascending => "ASC"
  | descending => "DESC"

end Order

namespace Param

/-- A hole for every element of an array, between parentheses, or the one of a scalar. -/
def write (p : Param) : List Piece :=
  if p.isArray then
    .text "(" ::
      (Piece.separated ", " ((List.range p.slots).map fun i => [.hole (.element p.token i)])
        ++ [.text ")"])
  else [.hole (.element p.token 0)]

end Param

namespace Bound

/-- A row number is written out; a parameter is a hole. -/
def write : Bound → List Piece
  | row n => [.text (toString n)]
  | param p => p.write

end Bound

namespace Flavor

/-- The word of a search; MySQL compares texts without regard to case anyhow. -/
def likeWord (f : Flavor) (ignoreCase : Bool) : String :=
  match f with
  | generic | postgres => if ignoreCase then " ILIKE " else " LIKE "
  | mysql => " LIKE "

/-- The pattern for a text, given as pieces, between wildcards. -/
def likePattern (f : Flavor) (wildcards : Bool × Bool) (precedence : Nat) (ps : List Piece) :
    List Piece :=
  let wildcard (asked : Bool) : List (List Piece) := if asked then [[.text (f.string "%")]] else []
  match f with
  | generic | postgres =>
    let text := Piece.parenthesized (precedence < BinaryOperator.addition.precedence) ps
    Piece.separated " || " (wildcard wildcards.1 ++ [text] ++ wildcard wildcards.2)
  | mysql =>
    .text "CONCAT(" ::
      (Piece.separated ", " (wildcard wildcards.1 ++ [ps] ++ wildcard wildcards.2) ++ [.text ")"])

/-- Equality without regard to case. -/
def sameIgnoringCase (f : Flavor) (left right : List Piece) : List Piece :=
  match f with
  | generic | postgres =>
    .text "UPPER(" :: (left ++ .text ") = UPPER(" :: (right ++ [.text ")"]))
  | mysql => left ++ .text " = " :: right

end Flavor

namespace Expr

mutual

/-- The expression as pieces of a statement. -/
def write (w : Manner) : Expr → List Piece
  | column c => [.text (w.flavor.column w.qualify c.ref)]
  | reference c => [.text (w.flavor.column w.qualify c)]
  | param p => p.write
  | bound b => b.write
  | literal v => [.hole (.literal v)]
  | truth b => [.text (Flavor.boolean b)]
  | raw sql => [.text sql]
  | binary op l r =>
    let left := write w l
    let enclosedLeft := Piece.parenthesized (l.precedence < op.precedence) left
    match op.between? with
    | some between =>
      let right := write { w with fragment := if op = .between then .rangeEnds else w.fragment } r
      enclosedLeft ++ .text between ::
        Piece.parenthesized (!op.closesRight && r.precedence ≤ op.precedence) right
    | none =>
      let right := write w r
      if op = .iexact then w.flavor.sameIgnoringCase left right
      else
        enclosedLeft ++ .text (w.flavor.likeWord (op = .icontains)) ::
          w.flavor.likePattern op.wildcards r.precedence right
  | unary op e =>
    let operand := Piece.parenthesized (e.precedence ≤ op.precedence) (write w e)
    match op with
    | .negative => .text "-" :: operand
    | .not => .text "NOT " :: operand
    | .isNull => operand ++ [.text " IS NULL"]
    | .isNotNull => operand ++ [.text " IS NOT NULL"]
  | list items =>
    if w.fragment = .rangeEnds then
      Piece.separated " AND " (writeEnds { w with fragment := .plain } items)
    else if items.isEmpty then [.text "(NULL)"]
    else .text "(" :: (Piece.separated ", " (writeItems w items) ++ [.text ")"])
  | cases whens otherwise =>
    .text "CASE" :: (writeBranches w whens ++ (writeOtherwise w otherwise ++ [.text " END"]))
  | ordered order e =>
    write w e ++ if w.fragment = .orderings then [.text (" " ++ order.text)] else []

def writeItems (w : Manner) : List Expr → List (List Piece)
  | [] => []
  | e :: rest => write w e :: writeItems w rest

/-- The ends of a range, which `AND` holds apart. -/
def writeEnds (w : Manner) : List Expr → List (List Piece)
  | [] => []
  | e :: rest =>
    Piece.parenthesized (e.precedence ≤ BinaryOperator.and.precedence) (write w e)
      :: writeEnds w rest

def writeBranches (w : Manner) : List (Expr × Expr) → List Piece
  | [] => []
  | (condition, e) :: rest =>
    .text " WHEN " :: (write w condition ++ .text " THEN " :: (write w e ++ writeBranches w rest))

def writeOtherwise (w : Manner) : Option Expr → List Piece
  | none => []
  | some e => .text " ELSE " :: write w e

end

end Expr

end PreparedSql
