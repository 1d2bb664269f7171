import PreparedSql.Proofs.WrittenExpressions

/-! Statements of every flavor cut into lexemes. The flavors differ in the mark around names and in
nothing else that a cut depends on. With the two marks exchanged a statement reads like one that
quotes its names with double quotes, and each name is found with its own marks put back. -/
namespace PreparedSql

open Lexeme

/-! ### Exchanged marks -/

namespace Flavor

variable {f : Flavor}

/-- The mark of names and the double quote in each other's place. -/
def exchange (f : Flavor) (c : Char) : Char :=
  if c = f.nameMark then '"' else if c = '"' then f.nameMark else c

theorem exchange_exchange (c : Char) : f.exchange (f.exchange c) = c := by
  unfold exchange
  by_cases mark : c = f.nameMark
  · simp [mark]
  · by_cases quote : c = '"'
    · simp [quote]
    · simp [mark, quote]

theorem exchange_eq_quote {c : Char} : f.exchange c = '"' ↔ c = f.nameMark := by
  constructor
  · intro quote
    rw [← f.exchange_exchange c, quote]
    by_cases same : '"' = f.nameMark <;> simp [exchange, same]
  · rintro rfl
    simp [exchange]

def exchanged (f : Flavor) (s : String) : String :=
  String.ofList (s.toList.map f.exchange)

@[simp] theorem toList_exchanged (s : String) :
    (f.exchanged s).toList = s.toList.map f.exchange :=
  String.toList_ofList

theorem exchanged_exchanged (s : String) : f.exchanged (f.exchanged s) = s := by
  simp [← String.toList_inj, Function.comp_def, exchange_exchange]

theorem exchanged_append (s t : String) :
    f.exchanged (s ++ t) = f.exchanged s ++ f.exchanged t := by
  simp [← String.toList_inj]

theorem exchanged_eq_empty {s : String} : f.exchanged s = "" ↔ s = "" := by
  constructor
  · intro empty
    have listed := congrArg String.toList empty
    rw [toList_exchanged] at listed
    simpa using listed
  · rintro rfl
    rfl

/-- The words of expressions hold neither mark. -/
theorem exchanged_word : ∀ word ∈ Word.all, f.exchanged word.text = word.text := by
  cases f <;> decide +kernel

private theorem exchanged_identifier (name : String) :
    f.exchanged (f.identifier name) = generic.identifier (f.exchanged name) := by
  have mark : f.exchange f.nameMark = '"' := exchange_eq_quote.mpr rfl
  have quote : generic.nameMark = '"' := rfl
  rw [← String.toList_inj, toList_exchanged, identifier, identifier, Text.toList_enclosed,
    Text.toList_enclosed, toList_exchanged, quote, List.map_cons, List.map_append, List.map_flatMap,
    List.flatMap_map, mark]
  congr 3
  · funext c
    by_cases same : c = f.nameMark
    · simp [same, mark]
    · simp [same, exchange_eq_quote]
  · simp [mark]

private theorem exchanged_qualified (outer : List String) (name : String) :
    f.exchanged (f.qualified outer name) =
      generic.qualified (outer.map f.exchanged) (f.exchanged name) := by
  have point : f.exchanged "." = "." := by cases f <;> decide
  unfold qualified
  rw [exchanged_append, exchanged_identifier]
  congr 1
  induction outer with
  | nil => exact exchanged_eq_empty.mpr rfl
  | cons n outer ih =>
    by_cases empty : n = ""
    · simpa [empty, exchanged_eq_empty.mpr] using ih
    · simpa [empty, exchanged_eq_empty, exchanged_append, exchanged_identifier, point] using ih

/-- With its marks exchanged, the name of a column is what the generic writer writes for one. -/
theorem exchanged_column (qualify : Bool) (c : ColumnRef) :
    f.exchanged (f.column qualify c) = generic.column qualify
      { name := f.exchanged c.name, table := f.exchanged c.table,
        schema := f.exchanged c.schema } := by
  unfold column
  by_cases qualified : qualify ∧ c.table ≠ ""
  · rw [if_pos qualified, if_pos (by simpa [exchanged_eq_empty] using qualified),
      exchanged_qualified]
    rfl
  · rw [if_neg qualified, if_neg (by simpa [exchanged_eq_empty] using qualified),
      exchanged_identifier]

end Flavor

/-- The symbol with marks exchanged. -/
def Symbol.exchange (f : Flavor) : Symbol → Symbol
  | char c => char (f.exchange c)
  | hole h => hole h

def Lexeme.exchange (f : Flavor) : Lexeme → Lexeme
  | name text => name (f.exchanged text)
  | word w => word w
  | hole h => hole h

theorem Lexeme.exchange_exchange (f : Flavor) (x : Lexeme) : (x.exchange f).exchange f = x := by
  cases x with
  | name text => exact congrArg name (f.exchanged_exchanged text)
  | word w => rfl
  | hole h => rfl

def Piece.exchange (f : Flavor) : Piece → Piece
  | text s => text (f.exchanged s)
  | hole h => hole h

theorem Piece.symbols_exchange (f : Flavor) (ps : List Piece) :
    symbols (ps.map (exchange f)) = (symbols ps).map (Symbol.exchange f) := by
  induction ps with
  | nil => rfl
  | cons p ps ih =>
    cases p with
    | text s =>
      simp [exchange, ih, Symbol.ofText, Function.comp_def, Symbol.exchange]
    | hole h => simp [exchange, ih, Symbol.exchange]

/-- The lexemes of a statement in the flavor. -/
def Template.lexemes (f : Flavor) (t : Template) : List Lexeme :=
  (ofSymbols (t.symbols.map (Symbol.exchange f))).map (Lexeme.exchange f)

/-! ### Cutting pieces -/

namespace Piece

variable {f : Flavor} {ps qs : List Piece} {ls ms : List Lexeme}

/-- A statement of the flavor that is made of the pieces is cut into these lexemes. -/
def CutsIn (f : Flavor) (ps : List Piece) (ls : List Lexeme) : Prop :=
  Cuts (ps.map (exchange f)) (ls.map (Lexeme.exchange f))

theorem cutsIn_nil : CutsIn f [] [] := cuts_nil

theorem cutsIn_hole (h : Hole) (behind : CutsIn f ps ls) :
    CutsIn f (.hole h :: ps) (.hole h :: ls) := cuts_hole h behind

theorem cutsIn_text (word : Word) (member : word ∈ Word.all) (behind : CutsIn f ps ls) :
    CutsIn f (.text word.text :: ps) (.word word :: ls) := by
  have cuts := cuts_text word member behind
  rwa [← f.exchanged_word word member] at cuts

theorem cutsIn_behind (word : Word) (member : word ∈ Word.all) (front : CutsIn f ps ls)
    (back : CutsIn f qs ms) :
    CutsIn f (ps ++ .text word.text :: qs) (ls ++ .word word :: ms) := by
  have cuts := cuts_behind word member front back
  rw [← f.exchanged_word word member] at cuts
  unfold CutsIn
  rw [List.map_append, List.map_append, List.map_cons, List.map_cons]
  exact cuts

theorem cutsIn_parenthesized (asked : Bool) (inner : CutsIn f ps ls) :
    CutsIn f (parenthesized asked ps) (Lexeme.parenthesized asked ls) := by
  cases asked with
  | false => exact inner
  | true =>
    exact cutsIn_text .opening (by decide) (cutsIn_behind .closing (by decide) inner cutsIn_nil)

theorem cutsIn_column (qualify : Bool) (c : ColumnRef) :
    CutsIn f [.text (f.column qualify c)] [.name (f.column qualify c)] := by
  show Cuts [.text (f.exchanged (f.column qualify c))] [.name (f.exchanged (f.column qualify c))]
  rw [Flavor.exchanged_column]
  exact cuts_name (Flavor.isName_column rfl qualify _)

private theorem cutsIn_elements (token : String) : ∀ is : List Nat,
    CutsIn f (separated ", " (is.map fun i => [.hole (.element token i)])) (elements token is)
  | [] => cutsIn_nil
  | [_] => cutsIn_hole _ cutsIn_nil
  | _ :: j :: rest =>
    cutsIn_hole _ (cutsIn_text .comma (by decide) (cutsIn_elements token (j :: rest)))

theorem cutsIn_param (p : Param) : CutsIn f p.write p.lexemes := by
  have inner := cutsIn_elements (f := f) p.token (List.range p.slots)
  by_cases isArray : p.isArray
  · rw [Param.write, if_pos isArray, Param.lexemes, isArray]
    exact cutsIn_text .opening (by decide) (cutsIn_behind .closing (by decide) inner cutsIn_nil)
  · have scalar := eq_false_of_ne_true isArray
    rw [Param.write, if_neg isArray, Param.lexemes, Param.slots_of_scalar scalar, scalar]
    exact cutsIn_hole _ cutsIn_nil

/-- What the pieces are cut into are the lexemes of the statement. -/
theorem lexemes_ofPieces (cuts : CutsIn f ps ls) : (Template.ofPieces ps).lexemes f = ls := by
  have cut := cuts [] fun _ _ same => nomatch same
  rw [List.append_nil, ofSymbols_nil, List.append_nil, symbols_exchange] at cut
  rw [Template.lexemes, Template.symbols_ofPieces, cut, List.map_map]
  have undone : Lexeme.exchange f ∘ Lexeme.exchange f = id :=
    funext (Lexeme.exchange_exchange f)
  rw [undone, List.map_id]

end Piece

end PreparedSql
