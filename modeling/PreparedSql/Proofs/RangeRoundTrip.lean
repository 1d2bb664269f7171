import PreparedSql.Proofs.ExpressionLeaves
import PreparedSql.Proofs.RangeReader

/-! Range tests read back. An end of a range stands in parentheses when it binds no closer than the
`AND` between the ends. That keeps the lower end whole. The upper end is followed by whatever
follows the test, and there an operator that binds closer than `AND`, but no closer than the test
itself, is written like an operator behind the test. Every other expression is read back as it
was. -/
namespace PreparedSql

open RangeReader
open Reader (Leads Stops atom? leads_append leads_parenthesized stops_of_rank? stops_of_none)
open Piece (CutsIn cutsIn_nil cutsIn_hole cutsIn_text cutsIn_behind cutsIn_parenthesized
  cutsIn_column cutsIn_param lexemes_ofPieces)
open Lexeme (parenthesized)

/-- The operator stands between two operands, each of them in parentheses where it needs some. -/
def BinaryOperator.standsBetween (op : BinaryOperator) : Bool :=
  op.between?.isSome && !op.closesRight

namespace Expr

/-- The expression is made of columns, literals, truth values, parameters, operators that stand
before, behind or between their operands, and range tests. The upper end of every range test stands
in parentheses or binds closer than the test. -/
inductive KeepsBounds : Expr → Prop
  | column (c : Column) : KeepsBounds (column c)
  | reference (c : ColumnRef) : KeepsBounds (reference c)
  | literal (v : Value) : KeepsBounds (literal v)
  | truth (b : Bool) : KeepsBounds (truth b)
  | param (p : Param) : KeepsBounds (param p)
  | unary (op : UnaryOperator) {e : Expr} (operand : KeepsBounds e) : KeepsBounds (unary op e)
  | binary {op : BinaryOperator} {l r : Expr} (stands : op.standsBetween) (left : KeepsBounds l)
      (right : KeepsBounds r) : KeepsBounds (binary op l r)
  | range {x low high : Expr} (tested : KeepsBounds x) (lower : KeepsBounds low)
      (upper : KeepsBounds high)
      (apart : high.precedence ≤ BinaryOperator.and.precedence ∨
        BinaryOperator.between.precedence < high.precedence) :
      KeepsBounds (binary .between x (list [low, high]))

/-- The lexemes are those of the expression: its text is cut into them, and where they stand it is
found at any level that is not above it. -/
structure Legible (issued : String → Param) (w : Manner) (e : Expr) (ls : List Lexeme) : Prop where
  cuts : CutsIn w.flavor (e.write w) ls
  leads : Leads issued ls
  reads : ∀ {level : Nat} {ts rest : List Lexeme} {x : Expr}, level ≤ e.precedence →
    Stops (e.precedence + 1) ts → Climbs issued level (e.asWritten w) ts x rest →
    Reads issued level (ls ++ ts) x rest

variable {issued : String → Param} {w : Manner} {level rank : Nat} {e l r x low high : Expr}
  {ls ms hs ts rest : List Lexeme}

namespace Legible

/-- Nothing follows that the expression could go on with. -/
theorem alone (legible : Legible issued w e ls) (stops : Stops 0 ts) :
    Reads issued 0 (ls ++ ts) (e.asWritten w) ts :=
  legible.reads (Nat.zero_le _) (stops.mono (Nat.zero_le _)) (climbs_stop stops _)

/-- An operand, in parentheses unless it holds together closely enough. -/
theorem operand (legible : Legible issued w e ls) {enclosed : Bool}
    (bare : enclosed = false → level ≤ e.precedence ∧ Stops (e.precedence + 1) ts)
    (onward : Climbs issued level (e.asWritten w) ts x rest) :
    Reads issued level (parenthesized enclosed ls ++ ts) x rest := by
  cases enclosed with
  | false => exact legible.reads (bare rfl).1 (bare rfl).2 onward
  | true =>
    have inner := legible.alone (stops_of_none (w := .closing) rfl 0 ts)
    have same : parenthesized true ls ++ ts = .word .opening :: (ls ++ .word .closing :: ts) := by
      simp [parenthesized]
    rw [same]
    have first := legible.leads
    cases ls with
    | nil => cases first
    | cons y ls => exact reads_enclosed first inner onward

/-- The operand in front of an operator. -/
theorem before (legible : Legible issued w e ls) {word : Word} (ranked : word.rank? = some rank)
    (close : level ≤ rank) {enclosed : Bool} (bare : enclosed = false → rank ≤ e.precedence)
    (onward : Climbs issued level (e.asWritten w) (.word word :: ts) x rest) :
    Reads issued level (parenthesized enclosed ls ++ .word word :: ts) x rest := by
  refine legible.operand (fun asked => ?_) onward
  have holds := bare asked
  exact ⟨Nat.le_trans close holds, stops_of_rank? ranked (Nat.lt_succ_of_le holds) ts⟩

/-- The operand behind an operator. -/
theorem behind (legible : Legible issued w e ls) {enclosed : Bool}
    (bare : enclosed = false → rank < e.precedence) (stops : Stops (rank + 1) ts) :
    Reads issued (rank + 1) (parenthesized enclosed ls ++ ts) (e.asWritten w) ts := by
  refine legible.operand (fun asked => ?_) (climbs_stop stops _)
  have holds := bare asked
  exact ⟨holds, stops.mono (Nat.succ_le_succ (Nat.le_of_lt holds))⟩

end Legible

theorem legible_atom {y : Lexeme} (cuts : CutsIn w.flavor (e.write w) [y])
    (first : Reader.leads issued y) (atom : atom? issued y = some (e.asWritten w)) :
    Legible issued w e [y] where
  cuts := cuts
  leads := first
  reads _ _ onward := reads_atom atom onward

/-- An array stands in parentheses of its own, a scalar for itself. -/
theorem legible_param {p : Param} (known : issued p.token = p) :
    Legible issued w (param p) p.lexemes := by
  have cuts : CutsIn w.flavor ((param p).write w) p.lexemes := by
    rw [write]
    exact cutsIn_param p
  by_cases isArray : p.isArray
  · refine ⟨cuts, ?_, fun _ _ onward => reads_array isArray known onward⟩
    obtain ⟨behind, written, _⟩ := p.lexemes_array isArray
    rw [written]
    rfl
  · have scalar := eq_false_of_ne_true isArray
    have written : p.lexemes = [.hole (.element p.token 0)] := by
      rw [Param.lexemes, Param.slots_of_scalar scalar, scalar]
      rfl
    rw [written] at cuts ⊢
    refine legible_atom cuts ?_ (by rw [atom?, known]; rfl)
    rw [Reader.leads, known, scalar]
    rfl

theorem legible_unary (op : UnaryOperator) (inner : Legible issued w e ls) :
    ∃ ms, Legible issued w (unary op e) ms := by
  have cuts := cutsIn_parenthesized (e.precedence ≤ op.precedence) inner.cuts
  have first := leads_parenthesized (e.precedence ≤ op.precedence) inner.leads
  cases op with
  | negative =>
    refine ⟨_, cutsIn_text (.ahead .negative) (by decide) cuts, rfl, fun _ stops onward => ?_⟩
    exact reads_ahead (inner.behind (by simp) stops) onward
  | not =>
    refine ⟨_, cutsIn_text (.ahead .not) (by decide) cuts, rfl, fun _ stops onward => ?_⟩
    exact reads_ahead (inner.behind (by simp) stops) onward
  | isNull =>
    refine ⟨_, cutsIn_behind (.behind .isNull) (by decide) cuts cutsIn_nil, leads_append first _,
      fun close _ onward => ?_⟩
    rw [precedence] at close
    rw [List.append_assoc]
    exact inner.before rfl close (by simp; omega) (climbs_behind close onward)
  | isNotNull =>
    refine ⟨_, cutsIn_behind (.behind .isNotNull) (by decide) cuts cutsIn_nil, leads_append first _,
      fun close _ onward => ?_⟩
    rw [precedence] at close
    rw [List.append_assoc]
    exact inner.before rfl close (by simp; omega) (climbs_behind close onward)

/-- An operator between its operands, each in parentheses where it holds together too little. -/
theorem write_stands {op : BinaryOperator} (stands : op.standsBetween) (l r : Expr) :
    (binary op l r).write w = Piece.parenthesized (l.precedence < op.precedence) (l.write w) ++
      .text (Word.sign op).text :: Piece.parenthesized (r.precedence ≤ op.precedence) (r.write w) := by
  have noRange : op ≠ .between := by
    rintro rfl
    cases stands
  simp only [BinaryOperator.standsBetween, Bool.and_eq_true, Bool.not_eq_true'] at stands
  obtain ⟨text, written⟩ := Option.isSome_iff_exists.mp stands.1
  simp [write, written, noRange, stands.2, Word.text]

theorem legible_binary {op : BinaryOperator} (stands : op.standsBetween)
    (left : Legible issued w l ls) (right : Legible issued w r ms) :
    Legible issued w (binary op l r)
      (parenthesized (l.precedence < op.precedence) ls ++
        .word (.sign op) :: parenthesized (r.precedence ≤ op.precedence) ms) := by
  have noRange : op ≠ .between := by
    rintro rfl
    cases stands
  have known : Word.sign op ∈ Word.all :=
    Word.mem_all_sign (Bool.and_eq_true_iff.mp stands).1
  refine ⟨?_, leads_append (leads_parenthesized _ left.leads) _,
    fun {level ts rest x} close stops onward => ?_⟩
  · rw [write_stands stands]
    exact cutsIn_behind _ known (cutsIn_parenthesized _ left.cuts)
      (cutsIn_parenthesized _ right.cuts)
  · rw [List.append_assoc]
    exact left.before (Word.rank?_of_coupling? (Word.coupling?_sign noRange)) close (by simp)
      (climbs_between noRange close (right.behind (by simp) stops) onward)

/-- A range test, its ends in parentheses where they bind no closer than `AND`. -/
theorem write_range (fresh : w.fragment = .plain) (x low high : Expr) :
    (binary .between x (list [low, high])).write w =
      Piece.parenthesized (x.precedence < BinaryOperator.between.precedence) (x.write w) ++
        .text (Word.sign .between).text ::
          (Piece.parenthesized (low.precedence ≤ BinaryOperator.and.precedence) (low.write w) ++
            .text (Word.sign .and).text ::
              Piece.parenthesized (high.precedence ≤ BinaryOperator.and.precedence) (high.write w)) := by
  obtain ⟨flavor, qualify, fragment⟩ := w
  cases fresh
  rfl

theorem legible_range (fresh : w.fragment = .plain) (tested : Legible issued w x ls)
    (lower : Legible issued w low ms) (upper : Legible issued w high hs)
    (apart : high.precedence ≤ BinaryOperator.and.precedence ∨
      BinaryOperator.between.precedence < high.precedence) :
    Legible issued w (binary .between x (list [low, high]))
      (parenthesized (x.precedence < BinaryOperator.between.precedence) ls ++
        .word (.sign .between) ::
          (parenthesized (low.precedence ≤ BinaryOperator.and.precedence) ms ++
            .word (.sign .and) ::
              parenthesized (high.precedence ≤ BinaryOperator.and.precedence) hs)) := by
  refine ⟨?_, leads_append (leads_parenthesized _ tested.leads) _,
    fun {level ts rest y} close stops onward => ?_⟩
  · rw [write_range fresh]
    exact cutsIn_behind (.sign .between) (by decide) (cutsIn_parenthesized _ tested.cuts)
      (cutsIn_behind (.sign .and) (by decide) (cutsIn_parenthesized _ lower.cuts)
        (cutsIn_parenthesized _ upper.cuts))
  · rw [List.append_assoc, List.cons_append, List.append_assoc, List.cons_append]
    have separated : Stops (BinaryOperator.and.precedence + 1)
        (.word (.sign .and) :: (parenthesized (high.precedence ≤ BinaryOperator.and.precedence) hs ++
          ts)) := stops_of_rank? (w := .sign .and) rfl (Nat.lt_succ_self _) _
    have closer (bare : decide (low.precedence ≤ BinaryOperator.and.precedence) = false) :
        BinaryOperator.and.precedence < low.precedence := by
      simpa using bare
    have closer' (bare : decide (high.precedence ≤ BinaryOperator.and.precedence) = false) :
        BinaryOperator.between.precedence < high.precedence :=
      apart.resolve_left (by simpa using bare)
    have first := lower.behind closer separated
    have last := upper.behind closer' stops
    have ranked : (Word.sign .between).rank? = some BinaryOperator.between.precedence := rfl
    exact tested.before ranked close (by simp) (climbs_range close first last onward)

/-- By induction on what the expression is made of: where the operands are legible, it is. -/
theorem legible_of_keepsBounds (fresh : w.fragment = .plain) (keeps : e.KeepsBounds)
    (known : ∀ p, .param p ∈ e.leaves → issued p.token = p) :
    ∃ ls, Legible issued w e ls := by
  induction keeps with
  | column c => exact ⟨_, legible_atom (cutsIn_column w.qualify c.ref) rfl rfl⟩
  | reference c => exact ⟨_, legible_atom (cutsIn_column w.qualify c) rfl rfl⟩
  | literal v => exact ⟨_, legible_atom (cutsIn_hole _ cutsIn_nil) rfl rfl⟩
  | truth b =>
    exact ⟨_, legible_atom (cutsIn_text (.truth b) (by cases b <;> decide) cutsIn_nil) rfl rfl⟩
  | param p => exact ⟨_, legible_param (known p (List.mem_singleton.mpr rfl))⟩
  | unary op _ ih =>
    obtain ⟨ls, inner⟩ := ih known
    exact legible_unary op inner
  | binary stands _ _ ihLeft ihRight =>
    obtain ⟨ls, left⟩ := ihLeft fun p member => known p (List.mem_append_left _ member)
    obtain ⟨ms, right⟩ := ihRight fun p member => known p (List.mem_append_right _ member)
    exact ⟨_, legible_binary stands left right⟩
  | range _ _ _ apart ihTested ihLower ihUpper =>
    obtain ⟨ls, tested⟩ := ihTested fun p member => known p (List.mem_append_left _ member)
    obtain ⟨ms, lower⟩ := ihLower fun p member => known p (by simp [leaves, itemLeaves, member])
    obtain ⟨hs, upper⟩ := ihUpper fun p member => known p (by simp [leaves, itemLeaves, member])
    exact ⟨_, legible_range fresh tested lower upper apart⟩

/-- In every flavor such an expression is read back as it was, `issued` being the parameter of a
token. -/
theorem readRanges_of_keepsBounds (fresh : w.fragment = .plain) (keeps : e.KeepsBounds)
    (known : ∀ p, .param p ∈ e.leaves → issued p.token = p) :
    (Template.ofPieces (e.write w)).readRanges w.flavor issued = some (e.asWritten w) := by
  obtain ⟨ls, legible⟩ := legible_of_keepsBounds fresh keeps known
  have found : Reads issued 0 (ls ++ []) (e.asWritten w) [] := legible.alone trivial
  rw [List.append_nil] at found
  rw [Template.readRanges, lexemes_ofPieces legible.cuts]
  exact readAll_of_reads found

/-- Any other upper end is written like an operator behind the range test, so that two expressions
have one text. -/
theorem write_range_of_looser (fresh : w.fragment = .plain) {op : BinaryOperator}
    (stands : op.standsBetween) (closer : BinaryOperator.and.precedence < op.precedence)
    (looser : op.precedence ≤ BinaryOperator.between.precedence) (x low : Expr) {y : Expr}
    (alike : y.precedence < op.precedence ↔ y.precedence ≤ BinaryOperator.and.precedence)
    (z : Expr) :
    (binary .between x (list [low, binary op y z])).write w =
      (binary op (binary .between x (list [low, y])) z).write w := by
  have bare : Piece.parenthesized ((binary op y z).precedence ≤ BinaryOperator.and.precedence)
      ((binary op y z).write w) = (binary op y z).write w := by
    rw [precedence, decide_eq_false (Nat.not_le_of_lt closer)]
    rfl
  have bare' (e : Expr) :
      Piece.parenthesized ((binary .between x e).precedence < op.precedence)
        ((binary .between x e).write w) = (binary .between x e).write w := by
    rw [precedence, decide_eq_false (Nat.not_lt_of_le looser)]
    rfl
  have same : decide (y.precedence < op.precedence) =
      decide (y.precedence ≤ BinaryOperator.and.precedence) := decide_eq_decide.mpr alike
  rw [write_range fresh, bare, write_stands stands, write_stands stands, bare', write_range fresh,
    same]
  simp only [List.append_assoc, List.cons_append]

/-- A range test keeps its bounds, alone and as an operand, as long as the upper end of each test
stands in parentheses or binds closer than the test: the expression is read back as it was. With
an upper end that binds closer than `AND` only, it has the text of another expression, in which the
operator of the end stands behind the test. -/
theorem range_keepsBounds (fresh : w.fragment = .plain) :
    (∀ {e : Expr} {issued : String → Param}, e.KeepsBounds →
      (∀ p, .param p ∈ e.leaves → issued p.token = p) →
        (Template.ofPieces (e.write w)).readRanges w.flavor issued = some (e.asWritten w)) ∧
    ∀ {op : BinaryOperator} {y : Expr}, op.standsBetween →
      BinaryOperator.and.precedence < op.precedence →
      op.precedence ≤ BinaryOperator.between.precedence →
      (y.precedence < op.precedence ↔ y.precedence ≤ BinaryOperator.and.precedence) →
        ∀ x low z : Expr, Template.ofPieces
            ((binary .between x (list [low, binary op y z])).write w) =
          Template.ofPieces ((binary op (binary .between x (list [low, y])) z).write w) := by
  refine ⟨fun keeps known => readRanges_of_keepsBounds fresh keeps known, ?_⟩
  intro op y stands closer looser alike x low z
  rw [write_range_of_looser fresh stands closer looser x low alike z]

/-- The stock between a given number and another expression. -/
def stockUpTo (high : Expr) : Expr :=
  binary .between (reference { name := "stock" }) (list [param (.scalar "t0" "least"), high])

def soldAndReturned : Expr :=
  binary .addition (reference { name := "sold" }) (reference { name := "returned" })

/-- A sum binds closer than the test, also where the test is an operand itself. -/
theorem stockUpTo_sum_keepsBounds :
    (Template.ofPieces ((unary .not (stockUpTo soldAndReturned)).write
        { flavor := .mysql })).readRanges .mysql (fun _ => .scalar "t0" "least") =
      some ((unary .not (stockUpTo soldAndReturned)).asWritten { flavor := .mysql }) := by
  have sum : soldAndReturned.KeepsBounds := .binary rfl (.reference _) (.reference _)
  have test : (stockUpTo soldAndReturned).KeepsBounds :=
    .range (.reference _) (.param _) sum (.inr (by decide))
  refine (range_keepsBounds (w := { flavor := .mysql }) rfl).1 (.unary .not test) ?_
  simp [stockUpTo, soldAndReturned, leaves, itemLeaves, Param.scalar]

def soldIsReturned : Expr :=
  binary .equal (reference { name := "sold" }) (reference { name := "returned" })

/-- The stock up to whether two columns are equal, and whether the stock lies between the bounds
just when a third column says so, are written in the same way. -/
theorem stockUpTo_equal_sameText :
    Template.ofPieces ((stockUpTo soldIsReturned).write { flavor := .postgres }) =
        Template.ofPieces ((binary .equal (stockUpTo (reference { name := "sold" }))
          (reference { name := "returned" })).write { flavor := .postgres }) ∧
      stockUpTo soldIsReturned ≠ binary .equal (stockUpTo (reference { name := "sold" }))
        (reference { name := "returned" }) := by
  refine ⟨?_, by simp [stockUpTo]⟩
  unfold stockUpTo soldIsReturned
  rw [write_range_of_looser rfl rfl (by decide) (by decide) _ _ (by decide)]

end Expr

end PreparedSql
