import PreparedSql.Proofs.TemplateFilling

/-! A statement as a reader meets it: its characters, with every hole between
the two characters where it belongs. Text and offsets say as much as the pieces
that the statement was put together from. -/
namespace PreparedSql

/-- A character of a statement, or a hole between two characters. -/
inductive Symbol where
  | char (c : Char)
  | hole (h : Hole)

namespace Symbol

def ofText (s : String) : List Symbol :=
  s.toList.map char

@[simp] theorem ofText_append (s t : String) : ofText (s ++ t) = ofText s ++ ofText t := by
  simp [ofText]

end Symbol

namespace Piece

def symbols : List Piece → List Symbol
  | [] => []
  | text s :: rest => Symbol.ofText s ++ symbols rest
  | hole h :: rest => .hole h :: symbols rest

@[simp] theorem symbols_nil : symbols [] = [] := rfl

@[simp] theorem symbols_text (s : String) (ps : List Piece) :
    symbols (.text s :: ps) = Symbol.ofText s ++ symbols ps := rfl

@[simp] theorem symbols_hole (h : Hole) (ps : List Piece) :
    symbols (.hole h :: ps) = .hole h :: symbols ps := rfl

@[simp] theorem symbols_append (ps qs : List Piece) :
    symbols (ps ++ qs) = symbols ps ++ symbols qs := by
  induction ps with
  | nil => rfl
  | cons p ps ih => cases p <;> simp [ih]

end Piece

namespace Template

/-- The symbols of what is left of a text, which begins at the offset `start`. -/
def symbolsFrom (start : Nat) (rest : List Char) : List (Nat × Hole) → List Symbol
  | [] => rest.map .char
  | (offset, h) :: holes =>
    match Text.splitBytes? (offset - start) rest with
    | some (front, back) => front.map .char ++ .hole h :: symbolsFrom offset back holes
    | none => rest.map .char

def symbols (t : Template) : List Symbol :=
  symbolsFrom 0 t.text.toList t.holes

private theorem symbolsFrom_pieces (ps : List Piece) (start : Nat) (front : String) :
    symbolsFrom start (front ++ Piece.texts ps).toList
        (Piece.holesFrom (start + front.utf8ByteSize) ps) =
      Symbol.ofText front ++ Piece.symbols ps := by
  induction ps generalizing start front with
  | nil => simp [Piece.texts, Piece.holesFrom, symbolsFrom, Symbol.ofText]
  | cons p ps ih =>
    cases p with
    | text s =>
      have later := ih start (front ++ s)
      rw [String.utf8ByteSize_append, ← Nat.add_assoc, String.append_assoc] at later
      simp only [Piece.texts, Piece.holesFrom, later, Symbol.ofText_append, Piece.symbols_text,
        List.append_assoc]
    | hole h =>
      have cut := Text.splitBytes?_front start front (Piece.texts ps)
      have later := ih (start + front.utf8ByteSize) ""
      simp only [String.utf8ByteSize_empty, Nat.add_zero, String.empty_append] at later
      simp only [Piece.texts, Piece.holesFrom, symbolsFrom, cut, later, Symbol.ofText,
        Piece.symbols_hole, String.toList_empty, List.map_nil, List.nil_append]

/-- The symbols of a statement are those of its pieces. -/
theorem symbols_ofPieces (ps : List Piece) : (ofPieces ps).symbols = Piece.symbols ps := by
  have read := symbolsFrom_pieces ps 0 ""
  simp only [String.utf8ByteSize_empty, Nat.zero_add, String.empty_append] at read
  exact read

end Template

end PreparedSql
