import PreparedSql.Expr.Writing
import PreparedSql.Proofs.Lexemes

/-! The lexemes of written expressions. Every piece that is written is a word, a
name or a hole, or some words in a row, and no name is followed by anything that
would make it longer. So the lexemes of the text are those of the expression,
one operand and one operator after the other. -/
namespace PreparedSql

namespace Expr

mutual

/-- The expression is made of columns, literals, truth values, parameters that
are no arrays, cases and operators other than `BETWEEN`; behind `IN` stands a
list or an array, and nowhere else. -/
def isPlain : Expr → Bool
  | column _ | reference _ | literal _ | truth _ => true
  | param p => !p.isArray
  | binary op l r => isPlain l && if op = .isIn then isMembers r else op != .between && isPlain r
  | unary _ e => isPlain e
  | cases whens otherwise => areBranches whens && isOtherwise otherwise
  | bound _ | raw _ | list _ | ordered _ _ => false

def isMembers : Expr → Bool
  | list items => arePlain items
  | param p => p.isArray
  | _ => false

def arePlain : List Expr → Bool
  | [] => true
  | e :: rest => isPlain e && arePlain rest

def areBranches : List (Expr × Expr) → Bool
  | [] => true
  | (condition, e) :: rest => isPlain condition && (isPlain e && areBranches rest)

def isOtherwise : Option Expr → Bool
  | none => true
  | some e => isPlain e

end

mutual

/-- The expression with every column known by the identifier that is written
for it. -/
def asWritten (w : Manner) : Expr → Expr
  | column c => reference { name := w.flavor.column w.qualify c.ref }
  | reference c => reference { name := w.flavor.column w.qualify c }
  | binary op l r => binary op (asWritten w l) (asWritten w r)
  | unary op e => unary op (asWritten w e)
  | list items => list (itemsAsWritten w items)
  | cases whens otherwise => cases (branchesAsWritten w whens) (otherwiseAsWritten w otherwise)
  | ordered order e => ordered order (asWritten w e)
  | param p => param p
  | bound b => bound b
  | literal v => literal v
  | truth b => truth b
  | raw sql => raw sql

def itemsAsWritten (w : Manner) : List Expr → List Expr
  | [] => []
  | e :: rest => asWritten w e :: itemsAsWritten w rest

def branchesAsWritten (w : Manner) : List (Expr × Expr) → List (Expr × Expr)
  | [] => []
  | (condition, e) :: rest => (asWritten w condition, asWritten w e) :: branchesAsWritten w rest

def otherwiseAsWritten (w : Manner) : Option Expr → Option Expr
  | none => none
  | some e => some (asWritten w e)

end

end Expr

namespace Lexeme

/-- Puts parentheses around lexemes, where asked. -/
def parenthesized (asked : Bool) (ls : List Lexeme) : List Lexeme :=
  if asked then .word .opening :: (ls ++ [.word .closing]) else ls

/-- A text with its wildcards. -/
def pattern (wildcards : Bool × Bool) (text : List Lexeme) : List Lexeme :=
  let text := if wildcards.2 then text ++ [.word .joined, .word .wildcard] else text
  if wildcards.1 then .word .wildcard :: .word .joined :: text else text

/-- One element after the other. -/
def elements (token : String) : List Nat → List Lexeme
  | [] => []
  | i :: rest => .hole (.element token i) ::
    rest.flatMap fun j => [.word .comma, .hole (.element token j)]

theorem length_elements (token : String) (i : Nat) (rest : List Nat) :
    (elements token (i :: rest)).length = 2 * rest.length + 1 := by
  rw [elements, List.length_cons, Nat.succ.injEq]
  induction rest with
  | nil => rfl
  | cons j rest ih =>
    simp only [List.flatMap_cons, List.length_append, List.length_cons, List.length_nil, ih]
    omega

end Lexeme

open Lexeme

def Param.lexemes (p : Param) : List Lexeme :=
  parenthesized p.isArray (elements p.token (List.range p.slots))

/-- An array takes two lexemes for each element, and one. -/
theorem Param.lexemes_array {p : Param} (isArray : p.isArray) :
    ∃ behind, p.lexemes = .word .opening :: .hole (.element p.token 0) :: behind ∧
      behind.length = 2 * p.slots - 1 := by
  obtain ⟨n, slots⟩ := Nat.exists_eq_succ_of_ne_zero (Nat.ne_of_gt p.slots_pos)
  have first : List.range p.slots = 0 :: (List.range n).map Nat.succ := by
    rw [slots, List.range_succ_eq_map]
  obtain ⟨behind, written⟩ : ∃ behind,
      elements p.token (List.range p.slots) = .hole (.element p.token 0) :: behind :=
    ⟨_, congrArg (elements p.token) first⟩
  refine ⟨behind ++ [.word .closing], by rw [lexemes, isArray, written]; rfl, ?_⟩
  have whole := length_elements p.token 0 ((List.range n).map Nat.succ)
  rw [← first, written] at whole
  simp only [List.length_cons, List.length_map, List.length_range] at whole
  simp only [List.length_append, List.length_singleton]
  omega

namespace Expr

mutual

/-- The lexemes of a plain expression, operators and parentheses where the
expression is written with them. -/
def lexemes (w : Manner) : Expr → List Lexeme
  | column c => [.name (w.flavor.column w.qualify c.ref)]
  | reference c => [.name (w.flavor.column w.qualify c)]
  | param p => p.lexemes
  | literal v => [.hole (.literal v)]
  | truth b => [.word (.truth b)]
  | binary op l r =>
    let left := parenthesized (l.precedence < op.precedence) (lexemes w l)
    if op.between?.isSome then
      left ++ .word (.sign op) ::
        parenthesized (!op.closesRight && r.precedence ≤ op.precedence) (lexemes w r)
    else if op = .iexact then
      .word .upper :: (lexemes w l ++ .word .closing :: .word (.sign .equal) :: .word .upper ::
        (lexemes w r ++ [.word .closing]))
    else
      left ++ .word (if op = .icontains then .ilike else .sign .like) ::
        pattern op.wildcards (parenthesized
          (r.precedence < BinaryOperator.addition.precedence) (lexemes w r))
  | unary op e =>
    let operand := parenthesized (e.precedence ≤ op.precedence) (lexemes w e)
    match op with
    | .negative | .not => .word (.ahead op) :: operand
    | .isNull | .isNotNull => operand ++ [.word (.behind op)]
  | list items => .word .opening :: (itemLexemes w items ++ [.word .closing])
  | cases whens otherwise =>
    .word .cases :: (branchLexemes w whens ++ (otherwiseLexemes w otherwise ++ [.word .ending]))
  | bound _ | raw _ | ordered _ _ => []

/-- What stands in a list. -/
def itemLexemes (w : Manner) : List Expr → List Lexeme
  | [] => [.word .nothing]
  | e :: rest => lexemes w e ++ moreLexemes w rest

/-- The further items of a list. -/
def moreLexemes (w : Manner) : List Expr → List Lexeme
  | [] => []
  | e :: rest => .word .comma :: (lexemes w e ++ moreLexemes w rest)

def branchLexemes (w : Manner) : List (Expr × Expr) → List Lexeme
  | [] => []
  | (condition, e) :: rest =>
    .word .branch :: (lexemes w condition ++ .word .result :: (lexemes w e ++ branchLexemes w rest))

def otherwiseLexemes (w : Manner) : Option Expr → List Lexeme
  | none => []
  | some e => .word .otherwise :: lexemes w e

end

end Expr

/-! ### Cutting pieces -/

namespace Piece

/-- The symbols of the pieces are cut into these lexemes, whatever follows that
does not make a name longer. -/
def Cuts (ps : List Piece) (ls : List Lexeme) : Prop :=
  ∀ rest, Symbol.EndsName rest → ofSymbols (symbols ps ++ rest) = ls ++ ofSymbols rest

/-- The pieces make no name in front of them longer. -/
def Parts (ps : List Piece) : Prop :=
  ∀ rest, Symbol.EndsName rest → Symbol.EndsName (symbols ps ++ rest)

variable {ps qs : List Piece} {ls ms : List Lexeme}

theorem parts_nil : Parts [] := fun _ ends => ends

theorem parts_text (word : Word) (member : word ∈ Word.all) (ps : List Piece) :
    Parts (.text word.text :: ps) := by
  intro rest _ c behind same
  obtain ⟨d, ds, text, head⟩ := Word.head_text word member
  rw [symbols_text, Symbol.ofText, text] at same
  cases same
  exact head

theorem parts_append (front : Parts ps) (back : Parts qs) : Parts (ps ++ qs) := by
  intro rest ends
  rw [symbols_append, List.append_assoc]
  exact front _ (back _ ends)

theorem cuts_nil : Cuts [] [] := fun _ _ => rfl

theorem cuts_text (word : Word) (member : word ∈ Word.all) (behind : Cuts ps ls) :
    Cuts (.text word.text :: ps) (.word word :: ls) := by
  intro rest ends
  rw [symbols_text, List.append_assoc, ofSymbols_word member, behind rest ends]
  rfl

theorem cuts_hole (h : Hole) (behind : Cuts ps ls) : Cuts (.hole h :: ps) (.hole h :: ls) := by
  intro rest ends
  rw [symbols_hole, List.cons_append, ofSymbols_hole, behind rest ends]
  rfl

theorem cuts_name {name : String} (isName : Symbol.IsName name) :
    Cuts [.text name] [.name name] := by
  intro rest ends
  rw [symbols_text, symbols_nil, List.append_nil]
  exact ofSymbols_name isName ends

theorem cuts_append (front : Cuts ps ls) (back : Cuts qs ms) (parts : Parts qs) :
    Cuts (ps ++ qs) (ls ++ ms) := by
  intro rest ends
  rw [symbols_append, List.append_assoc, front _ (parts rest ends), back rest ends,
    List.append_assoc]

/-- A word behind other pieces. -/
theorem cuts_behind (word : Word) (member : word ∈ Word.all) (front : Cuts ps ls)
    (back : Cuts qs ms) : Cuts (ps ++ .text word.text :: qs) (ls ++ .word word :: ms) :=
  cuts_append front (cuts_text word member back) (parts_text word member qs)

theorem cuts_parenthesized (asked : Bool) (inner : Cuts ps ls) :
    Cuts (parenthesized asked ps) (Lexeme.parenthesized asked ls) := by
  cases asked with
  | false => exact inner
  | true => exact cuts_text .opening (by decide) (cuts_behind .closing (by decide) inner cuts_nil)

end Piece

open Piece

theorem Word.mem_all_sign {op : BinaryOperator} (written : op.between?.isSome) :
    Word.sign op ∈ Word.all := by
  cases op <;> first | decide | cases written

namespace Flavor

variable {f : Flavor}

theorem nameMark_of_ne (noMySql : f ≠ .mysql) : f.nameMark = '"' := by
  cases f <;> first | rfl | exact absurd rfl noMySql

theorem likeWord_of_ne (noMySql : f ≠ .mysql) (ignoreCase : Bool) :
    f.likeWord ignoreCase = (if ignoreCase then Word.ilike else .sign .like).text := by
  cases f <;> first | (cases ignoreCase <;> rfl) | exact absurd rfl noMySql

theorem string_wildcard (f : Flavor) : f.string "%" = Word.wildcard.text := by
  cases f <;> decide

theorem cuts_likePattern (noMySql : f ≠ .mysql) (wildcards : Bool × Bool) (precedence : Nat)
    {ps : List Piece} {ls : List Lexeme} (inner : Cuts ps ls) :
    Cuts (f.likePattern wildcards precedence ps) (pattern wildcards
      (Lexeme.parenthesized (precedence < BinaryOperator.addition.precedence) ls)) := by
  let enclosed := precedence < BinaryOperator.addition.precedence
  have text : Cuts (Piece.parenthesized enclosed ps) (Lexeme.parenthesized enclosed ls) :=
    cuts_parenthesized _ inner
  have last : Cuts [.text (f.string "%")] [.word .wildcard] := by
    rw [string_wildcard]
    exact cuts_text .wildcard (by decide) cuts_nil
  have both := cuts_behind .joined (by decide) text last
  have ahead {qs : List Piece} {ms : List Lexeme} (behind : Cuts qs ms) :
      Cuts (.text (f.string "%") :: .text Word.joined.text :: qs)
        (.word .wildcard :: .word .joined :: ms) := by
    rw [string_wildcard]
    exact cuts_text .wildcard (by decide) (cuts_text .joined (by decide) behind)
  cases f with
  | mysql => exact absurd rfl noMySql
  | _ =>
    match wildcards with
    | (false, false) => exact text
    | (false, true) => exact both
    | (true, false) => exact ahead text
    | (true, true) => exact ahead both

/-- The words between the two texts are written in one piece. -/
theorem cuts_sameIgnoringCase (noMySql : f ≠ .mysql) {left right : List Piece}
    {ls ms : List Lexeme} (front : Cuts left ls) (back : Cuts right ms) :
    Cuts (f.sameIgnoringCase left right) (.word .upper :: (ls ++ .word .closing ::
      .word (.sign .equal) :: .word .upper :: (ms ++ [.word .closing]))) := by
  have last := cuts_text .upper (by decide) (cuts_behind .closing (by decide) back cuts_nil)
  have whole := cuts_text .upper (by decide)
    (cuts_behind .closing (by decide) front (cuts_text (.sign .equal) (by decide) last))
  have joined : Symbol.ofText ") = UPPER(" =
      Symbol.ofText ")" ++ (Symbol.ofText " = " ++ Symbol.ofText "UPPER(") := rfl
  have same : symbols (f.sameIgnoringCase left right) =
      symbols (.text "UPPER(" :: (left ++ .text ")" :: .text " = " :: .text "UPPER(" ::
        (right ++ [.text ")"]))) := by
    cases f with
    | mysql => exact absurd rfl noMySql
    | _ => simp only [sameIgnoringCase, symbols_text, symbols_append, joined, List.append_assoc]
  intro rest ends
  rw [same]
  exact whole rest ends

end Flavor

namespace Param

theorem cuts_elements (token : String) : ∀ is : List Nat,
    Cuts (separated ", " (is.map fun i => [.hole (.element token i)])) (elements token is)
  | [] => cuts_nil
  | [i] => cuts_hole _ cuts_nil
  | i :: j :: rest =>
    cuts_hole _ (cuts_text .comma (by decide) (cuts_elements token (j :: rest)))

theorem cuts_write (p : Param) : Cuts p.write p.lexemes := by
  have inner := cuts_elements p.token (List.range p.slots)
  unfold write lexemes
  split
  · next isArray =>
    rw [isArray]
    exact cuts_text .opening (by decide) (cuts_behind .closing (by decide) inner cuts_nil)
  · next scalar =>
    have scalar := eq_false_of_ne_true scalar
    rw [slots_of_scalar scalar, scalar]
    exact cuts_hole _ cuts_nil

end Param

namespace Expr

theorem parts_writeBranches (w : Manner) : ∀ whens : List (Expr × Expr),
    Parts (writeBranches w whens)
  | [] => parts_nil
  | _ :: _ => parts_text .branch (by decide) _

theorem parts_writeOtherwise (w : Manner) (otherwise : Option Expr) :
    Parts (writeOtherwise w otherwise) := by
  cases otherwise with
  | none => exact parts_nil
  | some e => exact parts_text .otherwise (by decide) _

/-- An operator with its operands, from the pieces and lexemes of the operands. -/
private theorem cuts_binary {w : Manner} (noMySql : w.flavor ≠ .mysql) {op : BinaryOperator}
    {l r : Expr} (noRange : op ≠ .between) (left : Cuts (l.write w) (l.lexemes w))
    (right : Cuts (r.write w) (r.lexemes w)) :
    Cuts ((binary op l r).write w) ((binary op l r).lexemes w) := by
  have enclosed := cuts_parenthesized (l.precedence < op.precedence) left
  unfold write lexemes
  split
  · next between written =>
    have whole := cuts_behind (.sign op) (Word.mem_all_sign (by rw [written]; rfl)) enclosed
      (cuts_parenthesized (!op.closesRight && r.precedence ≤ op.precedence) right)
    rw [written, if_pos Option.isSome_some, if_neg noRange]
    rw [Word.text, written] at whole
    exact whole
  · next unwritten =>
    rw [unwritten]
    simp only [Option.isSome_none, Bool.false_eq_true, ↓reduceIte]
    split
    · exact Flavor.cuts_sameIgnoringCase noMySql left right
    · have search : (if op = .icontains then Word.ilike else .sign .like) ∈ Word.all := by
        split <;> decide
      have pattern := Flavor.cuts_likePattern noMySql op.wildcards r.precedence right
      rw [Flavor.likeWord_of_ne noMySql]
      simp only [decide_eq_true_eq]
      exact cuts_behind _ search enclosed pattern

mutual

/-- Cutting the text of a plain expression finds its lexemes. -/
theorem cuts_write {w : Manner} (noMySql : w.flavor ≠ .mysql) (fresh : w.fragment = .plain) :
    (e : Expr) → e.isPlain → Cuts (e.write w) (e.lexemes w)
  | column c, _ => by
    exact cuts_name (Flavor.isName_column (Flavor.nameMark_of_ne noMySql) w.qualify c.ref)
  | reference c, _ => by
    exact cuts_name (Flavor.isName_column (Flavor.nameMark_of_ne noMySql) w.qualify c)
  | literal v, _ => cuts_hole _ cuts_nil
  | truth b, _ => by
    exact cuts_text (.truth b) (by cases b <;> decide) cuts_nil
  | param p, _ => by
    rw [write, lexemes]
    exact p.cuts_write
  | binary op l r, plain => by
    rw [isPlain, Bool.and_eq_true] at plain
    obtain ⟨plainLeft, plainRight⟩ := plain
    have left := cuts_write noMySql fresh l plainLeft
    split at plainRight
    · next isIn =>
      exact cuts_binary noMySql (by rw [isIn]; decide) left
        (cuts_members noMySql fresh r plainRight)
    · rw [Bool.and_eq_true, bne_iff_ne] at plainRight
      exact cuts_binary noMySql plainRight.1 left (cuts_write noMySql fresh r plainRight.2)
  | unary op e, plain => by
    rw [isPlain] at plain
    have operand := cuts_parenthesized (e.precedence ≤ op.precedence)
      (cuts_write noMySql fresh e plain)
    cases op with
    | negative => exact cuts_text (.ahead .negative) (by decide) operand
    | not => exact cuts_text (.ahead .not) (by decide) operand
    | isNull => exact cuts_behind (.behind .isNull) (by decide) operand cuts_nil
    | isNotNull => exact cuts_behind (.behind .isNotNull) (by decide) operand cuts_nil
  | cases whens otherwise, plain => by
    rw [isPlain, Bool.and_eq_true] at plain
    have last := cuts_behind .ending (by decide)
      (cuts_writeOtherwise noMySql fresh otherwise plain.2) cuts_nil
    exact cuts_text .cases (by decide) (cuts_append
      (cuts_writeBranches noMySql fresh whens plain.1) last
      (parts_append (parts_writeOtherwise w otherwise) (parts_text .ending (by decide) [])))

theorem cuts_members {w : Manner} (noMySql : w.flavor ≠ .mysql) (fresh : w.fragment = .plain) :
    (e : Expr) → e.isMembers → Cuts (e.write w) (e.lexemes w)
  | param p, _ => by
    rw [write, lexemes]
    exact p.cuts_write
  | list [], _ => by
    have nothing : Cuts [.text "(", .text "NULL", .text ")"]
        [.word .opening, .word .nothing, .word .closing] :=
      cuts_text .opening (by decide) (cuts_text .nothing (by decide)
        (cuts_text .closing (by decide) cuts_nil))
    intro rest ends
    rw [write, if_neg (by rw [fresh]; decide)]
    exact nothing rest ends
  | list (e :: rest), plain => by
    rw [isMembers] at plain
    rw [write, if_neg (by rw [fresh]; decide), lexemes]
    exact cuts_text .opening (by decide) (cuts_behind .closing (by decide)
      (cuts_writeItems noMySql fresh (e :: rest) (List.cons_ne_nil e rest) plain) cuts_nil)

theorem cuts_writeItems {w : Manner} (noMySql : w.flavor ≠ .mysql) (fresh : w.fragment = .plain) :
    (items : List Expr) → items ≠ [] → arePlain items →
      Cuts (separated ", " (writeItems w items)) (itemLexemes w items)
  | [], filled, _ => absurd rfl filled
  | [e], _, plain => by
    rw [arePlain, Bool.and_eq_true] at plain
    rw [itemLexemes, moreLexemes, List.append_nil]
    exact cuts_write noMySql fresh e plain.1
  | e :: e' :: rest, _, plain => by
    rw [arePlain, Bool.and_eq_true] at plain
    exact cuts_behind .comma (by decide) (cuts_write noMySql fresh e plain.1)
      (cuts_writeItems noMySql fresh (e' :: rest) (List.cons_ne_nil e' rest) plain.2)

theorem cuts_writeBranches {w : Manner} (noMySql : w.flavor ≠ .mysql)
    (fresh : w.fragment = .plain) : (whens : List (Expr × Expr)) → areBranches whens →
      Cuts (writeBranches w whens) (branchLexemes w whens)
  | [], _ => cuts_nil
  | (condition, e) :: rest, plain => by
    rw [areBranches, Bool.and_eq_true, Bool.and_eq_true] at plain
    have given := cuts_append (cuts_write noMySql fresh e plain.2.1)
      (cuts_writeBranches noMySql fresh rest plain.2.2) (parts_writeBranches w rest)
    exact cuts_text .branch (by decide) (cuts_behind .result (by decide)
      (cuts_write noMySql fresh condition plain.1) given)

theorem cuts_writeOtherwise {w : Manner} (noMySql : w.flavor ≠ .mysql)
    (fresh : w.fragment = .plain) : (otherwise : Option Expr) → isOtherwise otherwise →
      Cuts (writeOtherwise w otherwise) (otherwiseLexemes w otherwise)
  | none, _ => cuts_nil
  | some e, plain => cuts_text .otherwise (by decide) (cuts_write noMySql fresh e plain)

end

end Expr

end PreparedSql
