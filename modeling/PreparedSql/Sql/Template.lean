import PreparedSql.Failure.Basic
import PreparedSql.Param.Basic
import PreparedSql.Sql.Literal
import PreparedSql.Text.Basic

/-! Statements with holes. Literals and parameters are not written into a
statement; they are kept beside it, each with the byte offset at which it
belongs. Filling the holes gives the statement with literals in place, the one
with placeholders, and the one that is displayed. -/
namespace PreparedSql

/-- What belongs at an offset of a statement. -/
inductive Hole where
  | literal (v : Value)
  /-- One element of a parameter; a scalar has one, at index zero. -/
  | element (token : String) (index : Nat)
  /-- The number of rows between two bounds. -/
  | span (low high : Bound)

/-- A statement while it is put together, from left to right. -/
inductive Piece where
  | text (s : String)
  | hole (h : Hole)

structure Template where
  text : String
  holes : List (Nat × Hole)

namespace Hole

/-- The hole waits for a value that a parameter supplies. -/
def isOpen : Hole → Bool
  | literal _ => false
  | _ => true

end Hole

namespace Piece

/-- The text of all pieces without the holes. -/
def texts : List Piece → String
  | [] => ""
  | text s :: rest => s ++ texts rest
  | hole _ :: rest => texts rest

/-- The holes with their offsets, the first piece lying at `start`. -/
def holesFrom (start : Nat) : List Piece → List (Nat × Hole)
  | [] => []
  | text s :: rest => holesFrom (start + s.utf8ByteSize) rest
  | hole h :: rest => (start, h) :: holesFrom start rest

/-- Puts a separator between lists of pieces. -/
def separated (separator : String) : List (List Piece) → List Piece
  | [] => []
  | [ps] => ps
  | ps :: rest => ps ++ text separator :: separated separator rest

/-- Puts parentheses around pieces, where asked. -/
def parenthesized (asked : Bool) (ps : List Piece) : List Piece :=
  if asked then text "(" :: (ps ++ [text ")"]) else ps

end Piece

namespace Template

def ofPieces (ps : List Piece) : Template :=
  ⟨Piece.texts ps, Piece.holesFrom 0 ps⟩

/-- Some hole waits for a parameter. -/
def isOpen (t : Template) : Bool :=
  t.holes.any (·.2.isOpen)

/-- Fills the holes of what is left of a text, which begins at the offset
`start`. Every hole has to lie between two characters, and none before the one
in front of it. -/
def fillFrom {m : Type → Type} [Monad m] [MonadExceptOf Failure m] (whole : String)
    (fill : Hole → m String) : Nat → List Char → List (Nat × Hole) → m String
  | _, rest, [] => pure (String.ofList rest)
  | start, rest, (offset, hole) :: holes =>
    match if start ≤ offset then Text.splitBytes? (offset - start) rest else none with
    | none => throw (.misplacedHole offset whole)
    | some (front, rest) => do
      let filling ← fill hole
      let back ← fillFrom whole fill offset rest holes
      pure (String.ofList front ++ filling ++ back)

/-- The text with every hole filled, from left to right. -/
def fill {m : Type → Type} [Monad m] [MonadExceptOf Failure m] (t : Template)
    (filling : Hole → m String) : m String :=
  fillFrom t.text filling 0 t.text.toList t.holes

/-- The text with every literal in place; no hole may wait for a parameter. -/
def inline (t : Template) (f : Flavor) : Except Failure String :=
  t.fill fun
    | .literal v => f.literal v
    | _ => .error .queryNotPrepared

/-- The text as it is shown: a question mark stands for what is not known yet. Without a place for
some hole, the text is shown as it stands. -/
def display (t : Template) : Except Failure String :=
  let shown : Except Failure String := t.fill fun
    | .literal v => Flavor.generic.literal v
    | _ => .ok "?"
  match shown with
  | .error (.misplacedHole _ _) => .ok t.text
  | shown => shown

end Template

end PreparedSql
