import PreparedSql.Proofs.ExpressionRoundTrip
import PreparedSql.Proofs.FlavoredLexemes

/-! Reading range tests back. A range test is the one operator with three operands. Its lower end
goes on up to the `AND` that belongs to the test, so it is read as an operand of `AND`; its upper
end is the last operand and is read as the right operand of any other operator of the same
precedence. -/
namespace PreparedSql

/-- How an expression goes on behind its first operand. -/
inductive Coupling where
  | behind (op : UnaryOperator)
  | between (op : BinaryOperator)
  | range

/-- The operator that the word stands for behind an operand, and its precedence. -/
def Word.coupling? : Word → Option (Nat × Coupling)
  | .behind op => some (op.precedence, .behind op)
  | .sign .between => some (BinaryOperator.between.precedence, .range)
  | .sign op => some (op.precedence, .between op)
  | _ => none

namespace Word

theorem rank?_of_coupling? {w : Word} {rank : Nat} {coupling : Coupling}
    (found : w.coupling? = some (rank, coupling)) : w.rank? = some rank := by
  cases w with
  | behind op =>
    cases found
    rfl
  | sign op => cases op <;> (cases found; rfl)
  | _ => cases found

theorem coupling?_sign {op : BinaryOperator} (noRange : op ≠ .between) :
    (sign op).coupling? = some (op.precedence, .between op) := by
  cases op <;> first | rfl | exact absurd rfl noRange

end Word

namespace RangeReader

open Reader

variable (issued : String → Param)

mutual

/-- An expression whose operators bind at least as closely as the level. -/
def read : Nat → Nat → List Lexeme → Option (Expr × List Lexeme)
  | 0, _, _ => none
  | _ + 1, _, [] => none
  | fuel + 1, level, x :: ls =>
    match atom? issued x with
    | some e => climb fuel level e ls
    | none =>
      match x with
      | .word .opening =>
        match array? issued (x :: ls) with
        | some p => climb fuel level (.param p) (ls.drop (2 * p.slots))
        | none => do
          let (e, ls) ← read fuel 0 ls
          let ls ← expect? .closing ls
          climb fuel level e ls
      | .word (.ahead op) => do
        let (e, ls) ← read fuel (op.precedence + 1) ls
        climb fuel level (.unary op e) ls
      | _ => none

/-- Goes on behind an operand. -/
def climb : Nat → Nat → Expr → List Lexeme → Option (Expr × List Lexeme)
  | 0, _, _, _ => none
  | fuel + 1, level, e, ls =>
    match ls with
    | .word w :: rest =>
      match w.coupling? with
      | none => some (e, ls)
      | some (rank, coupling) =>
        if level ≤ rank then
          match coupling with
          | .behind op => climb fuel level (.unary op e) rest
          | .between op => do
            let (r, rest) ← read fuel (rank + 1) rest
            climb fuel level (.binary op e r) rest
          | .range => do
            let (low, rest) ← read fuel (BinaryOperator.and.precedence + 1) rest
            let rest ← expect? (.sign .and) rest
            let (high, rest) ← read fuel (rank + 1) rest
            climb fuel level (.binary .between e (.list [low, high])) rest
        else some (e, ls)
    | _ => some (e, ls)

end

/-- Reads all lexemes as one expression. Every lexeme takes one step down. -/
def readAll (ls : List Lexeme) : Option Expr :=
  match read issued (ls.length + 1) 0 ls with
  | some (e, []) => some e
  | _ => none

end RangeReader

/-- The expression that a statement of the flavor is, range tests included. -/
def Template.readRanges (f : Flavor) (issued : String → Param) (t : Template) : Option Expr :=
  RangeReader.readAll issued (t.lexemes f)

/-! ### Steps of the reader -/

namespace RangeReader

open Reader

variable {issued : String → Param} {level : Nat} {e e' r low high : Expr}
  {ls ls' ls'' ts rest : List Lexeme}

abbrev Reads (issued : String → Param) (level : Nat) :=
  Finds fun fuel ls => read issued fuel level ls

abbrev Climbs (issued : String → Param) (level : Nat) (e : Expr) :=
  Finds fun fuel ls => climb issued fuel level e ls

theorem reads_atom {x : Lexeme} (atom : atom? issued x = some e)
    (onward : Climbs issued level e ls e' rest) : Reads issued level (x :: ls) e' rest := by
  refine .of_cons onward.shorter fun fuel enough => ?_
  unfold read
  rw [atom]
  exact onward.run fuel enough

/-- An array with all its elements. -/
theorem reads_array {p : Param} (isArray : p.isArray) (known : issued p.token = p)
    (onward : Climbs issued level (.param p) ts e' rest) :
    Reads issued level (p.lexemes ++ ts) e' rest := by
  obtain ⟨behind, written, size⟩ := p.lexemes_array isArray
  let elements := Lexeme.hole (.element p.token 0) :: behind
  have counted : elements.length = 2 * p.slots := by
    have filled := p.slots_pos
    simp only [elements, List.length_cons, size]
    omega
  have passed : (elements ++ ts).drop (2 * p.slots) = ts := List.drop_left' counted
  have shorter := onward.shorter
  rw [written]
  show Reads issued level (.word .opening :: (elements ++ ts)) e' rest
  have shorter' : rest.length ≤ (elements ++ ts).length := by
    rw [List.length_append]
    omega
  refine .of_cons shorter' fun fuel enough => ?_
  rw [List.length_append] at enough
  have array : array? issued (.word .opening :: (elements ++ ts)) = some p := by
    simp only [elements, List.cons_append, array?, known, isArray, ↓reduceIte]
  simp only [read, atom?, array, passed, onward.run fuel (by omega)]

theorem reads_enclosed {y : Lexeme} (first : leads issued y)
    (inner : Reads issued 0 (y :: ls) e (.word .closing :: ls'))
    (onward : Climbs issued level e ls' e' rest) :
    Reads issued level (.word .opening :: y :: ls) e' rest := by
  have shorter : ls'.length < (y :: ls).length := Nat.lt_of_succ_le inner.shorter
  have shorter' := onward.shorter
  refine .of_cons (by omega) fun fuel enough => ?_
  simp only [read, atom?, array?_of_leads first, inner.run fuel enough, expect?,
    onward.run fuel (by omega), Option.bind_eq_bind, Option.bind_some, ↓reduceIte]

theorem reads_ahead {op : UnaryOperator} (operand : Reads issued (op.precedence + 1) ls e ls')
    (onward : Climbs issued level (.unary op e) ls' e' rest) :
    Reads issued level (.word (.ahead op) :: ls) e' rest := by
  have shorter := operand.shorter
  have shorter' := onward.shorter
  refine .of_cons (by omega) fun fuel enough => ?_
  simp only [read, atom?, operand.run fuel enough, onward.run fuel (by omega),
    Option.bind_eq_bind, Option.bind_some]

/-- A looser operator ends the climb. -/
theorem climbs_stop (stops : Stops level ls) (e : Expr) : Climbs issued level e ls e ls := by
  refine .of_step (Nat.le_refl _) fun fuel _ => ?_
  unfold climb
  split
  · next w behind =>
    split
    · rfl
    · next rank coupling found =>
      exact if_neg (Nat.not_le_of_lt (stops rank (Word.rank?_of_coupling? found)))
  · rfl

theorem climbs_behind {op : UnaryOperator} (close : level ≤ op.precedence)
    (onward : Climbs issued level (.unary op e) ls e' rest) :
    Climbs issued level e (.word (.behind op) :: ls) e' rest := by
  refine .of_cons onward.shorter fun fuel enough => ?_
  simp only [climb, Word.coupling?, if_pos close]
  exact onward.run fuel enough

theorem climbs_between {op : BinaryOperator} (noRange : op ≠ .between) (close : level ≤ op.precedence)
    (right : Reads issued (op.precedence + 1) ls r ls')
    (onward : Climbs issued level (.binary op e r) ls' e' rest) :
    Climbs issued level e (.word (.sign op) :: ls) e' rest := by
  have shorter := right.shorter
  have shorter' := onward.shorter
  refine .of_cons (by omega) fun fuel enough => ?_
  simp only [climb, Word.coupling?_sign noRange, if_pos close, right.run fuel enough,
    onward.run fuel (by omega), Option.bind_eq_bind, Option.bind_some]

/-- The first `AND` that the lower end leaves is the one of the range test. -/
theorem climbs_range (close : level ≤ BinaryOperator.between.precedence)
    (lower : Reads issued (BinaryOperator.and.precedence + 1) ls low (.word (.sign .and) :: ls'))
    (upper : Reads issued (BinaryOperator.between.precedence + 1) ls' high ls'')
    (onward : Climbs issued level (.binary .between e (.list [low, high])) ls'' e' rest) :
    Climbs issued level e (.word (.sign .between) :: ls) e' rest := by
  have shorter := lower.shorter
  have shorter' := upper.shorter
  have shorter'' := onward.shorter
  simp only [List.length_cons] at shorter
  refine .of_cons (by omega) fun fuel enough => ?_
  simp only [climb, Word.coupling?, if_pos close, lower.run fuel enough, expect?,
    upper.run fuel (by omega), onward.run fuel (by omega), Option.bind_eq_bind, Option.bind_some,
    ↓reduceIte]

/-- What is found up to the last lexeme is the whole expression. -/
theorem readAll_of_reads (found : Reads issued 0 ls e []) : readAll issued ls = some e := by
  rw [readAll, found.run _ (Nat.lt_succ_self _)]

end RangeReader

end PreparedSql
