import PreparedSql.Proofs.Lexemes

/-! Reading an expression back from the lexemes of a statement. The reader
climbs precedences: it takes an operand, then goes on as long as an operator
follows that binds closely enough, and reads the right operand of that operator
one level higher. The precedences are those that expressions are written with. -/
namespace PreparedSql

/-- How an expression goes on behind its first operand. -/
inductive Joint where
  | behind (op : UnaryOperator)
  | between (op : BinaryOperator)
  | members
  | search (ignoreCase : Bool)

/-- The operator that the word stands for behind an operand, and its precedence. -/
def Word.joint? : Word → Option (Nat × Joint)
  | .behind op => some (op.precedence, .behind op)
  | .sign .isIn => some (BinaryOperator.isIn.precedence, .members)
  | .sign .like => some (BinaryOperator.like.precedence, .search false)
  | .sign op => some (op.precedence, .between op)
  | .ilike => some (BinaryOperator.icontains.precedence, .search true)
  | _ => none

namespace Reader

/-- An operand of one lexeme, `issued` being the parameter of a token. -/
def atom? (issued : String → Param) : Lexeme → Option Expr
  | .hole (.literal v) => some (.literal v)
  | .hole (.element token _) => some (.param (issued token))
  | .name text => some (.reference { name := text })
  | .word (.truth b) => some (.truth b)
  | _ => none

def expect? (w : Word) : List Lexeme → Option (List Lexeme)
  | .word w' :: rest => if w' = w then some rest else none
  | _ => none

def wildcardAhead : List Lexeme → Bool × List Lexeme
  | .word .wildcard :: .word .joined :: rest => (true, rest)
  | rest => (false, rest)

def wildcardBehind : List Lexeme → Bool × List Lexeme
  | .word .joined :: .word .wildcard :: rest => (true, rest)
  | rest => (false, rest)

/-- The search that a pattern with these wildcards is for. -/
def search? : (ignoreCase ahead behind : Bool) → Option BinaryOperator
  | false, false, false => some .like
  | false, false, true => some .startsWith
  | false, true, false => some .endsWith
  | false, true, true => some .contains
  | true, true, true => some .icontains
  | true, _, _ => none

/-- The array whose elements are listed first. -/
def array? (issued : String → Param) : List Lexeme → Option Param
  | .word .opening :: .hole (.element token _) :: _ =>
    if (issued token).isArray then some (issued token) else none
  | _ => none

variable (issued : String → Param)

mutual

/-- An expression whose operators bind at least as closely as the level. -/
def read : Nat → Nat → List Lexeme → Option (Expr × List Lexeme)
  | 0, _, _ => none
  | _ + 1, _, [] => none
  | fuel + 1, level, x :: ls =>
    match atom? issued x with
    | some e => climb fuel level e ls
    | none =>
      match x with
      | .word .opening => do
        let (e, ls) ← read fuel 0 ls
        let ls ← expect? .closing ls
        climb fuel level e ls
      | .word (.ahead op) => do
        let (e, ls) ← read fuel (op.precedence + 1) ls
        climb fuel level (.unary op e) ls
      | .word .upper => do
        let (l, ls) ← read fuel 0 ls
        let ls ← expect? .closing ls
        let ls ← expect? (.sign .equal) ls
        let ls ← expect? .upper ls
        let (r, ls) ← read fuel 0 ls
        let ls ← expect? .closing ls
        climb fuel level (.binary .iexact l r) ls
      | .word .cases => do
        let (whens, ls) ← readBranches fuel ls
        let (otherwise, ls) ← readOtherwise fuel ls
        let ls ← expect? .ending ls
        climb fuel level (.cases whens otherwise) ls
      | _ => none

/-- Goes on behind an operand. -/
def climb : Nat → Nat → Expr → List Lexeme → Option (Expr × List Lexeme)
  | 0, _, _, _ => none
  | fuel + 1, level, e, ls =>
    match ls with
    | .word w :: rest =>
      match w.joint? with
      | none => some (e, ls)
      | some (rank, joint) =>
        if level ≤ rank then
          match joint with
          | .behind op => climb fuel level (.unary op e) rest
          | .between op => do
            let (r, rest) ← read fuel (rank + 1) rest
            climb fuel level (.binary op e r) rest
          | .members => do
            let (r, rest) ← readMembers fuel rest
            climb fuel level (.binary .isIn e r) rest
          | .search ignoreCase => do
            let (r, rest') ← read fuel (rank + 1) (wildcardAhead rest).2
            let op ← search? ignoreCase (wildcardAhead rest).1 (wildcardBehind rest').1
            climb fuel level (.binary op e r) (wildcardBehind rest').2
        else some (e, ls)
    | _ => some (e, ls)

/-- What follows `IN`: an array with all its elements, or a list. -/
def readMembers : Nat → List Lexeme → Option (Expr × List Lexeme)
  | 0, _ => none
  | fuel + 1, ls =>
    match array? issued ls with
    | some p => some (.param p, ls.drop (2 * p.slots + 1))
    | none =>
      match ls with
      | .word .opening :: .word .nothing :: .word .closing :: rest => some (.list [], rest)
      | .word .opening :: rest => do
        let (e, rest) ← read fuel 0 rest
        let (es, rest) ← readMore fuel rest
        let rest ← expect? .closing rest
        return (.list (e :: es), rest)
      | _ => none

/-- The further items of a list. -/
def readMore : Nat → List Lexeme → Option (List Expr × List Lexeme)
  | 0, _ => none
  | fuel + 1, ls =>
    match expect? .comma ls with
    | none => some ([], ls)
    | some ls => do
      let (e, ls) ← read fuel 0 ls
      let (es, ls) ← readMore fuel ls
      return (e :: es, ls)

def readBranches : Nat → List Lexeme → Option (List (Expr × Expr) × List Lexeme)
  | 0, _ => none
  | fuel + 1, ls =>
    match expect? .branch ls with
    | none => some ([], ls)
    | some ls => do
      let (condition, ls) ← read fuel 0 ls
      let ls ← expect? .result ls
      let (e, ls) ← read fuel 0 ls
      let (rest, ls) ← readBranches fuel ls
      return ((condition, e) :: rest, ls)

def readOtherwise : Nat → List Lexeme → Option (Option Expr × List Lexeme)
  | 0, _ => none
  | fuel + 1, ls =>
    match expect? .otherwise ls with
    | none => some (none, ls)
    | some ls => do
      let (e, ls) ← read fuel 0 ls
      return (some e, ls)

end

/-- Reads all lexemes as one expression. Every lexeme takes one step down. -/
def readAll (ls : List Lexeme) : Option Expr :=
  match read issued (ls.length + 1) 0 ls with
  | some (e, []) => some e
  | _ => none

end Reader

/-- The expression that a statement is, read from its text and its holes. -/
def Template.readExpr (issued : String → Param) (t : Template) : Option Expr :=
  Reader.readAll issued (Lexeme.ofSymbols t.symbols)

/-! ### Steps of the reader -/

namespace Word

/-- How closely the word holds on to what stands in front of it. The texts of a
pattern are joined more loosely than numbers are added. -/
def rank? : Word → Option Nat
  | .joined => some (BinaryOperator.addition.precedence - 1)
  | w => w.joint?.map (·.1)

theorem rank?_of_joint? {w : Word} {rank : Nat} {joint : Joint}
    (found : w.joint? = some (rank, joint)) : w.rank? = some rank := by
  unfold rank?
  split
  · cases found
  · rw [found]
    rfl

theorem joint?_sign {op : BinaryOperator} (noMembers : op ≠ .isIn) (noPattern : op ≠ .like) :
    (sign op).joint? = some (op.precedence, .between op) := by
  cases op <;> first | rfl | exact absurd rfl noMembers | exact absurd rfl noPattern

end Word

namespace Reader

/-- A reader finds `a` in front of `rest`. One step down for every lexeme is enough. -/
structure Finds {α : Type} (reader : Nat → List Lexeme → Option (α × List Lexeme))
    (ls : List Lexeme) (a : α) (rest : List Lexeme) : Prop where
  shorter : rest.length ≤ ls.length
  run : ∀ fuel, ls.length < fuel → reader fuel ls = some (a, rest)

theorem Finds.of_step {α : Type} {reader : Nat → List Lexeme → Option (α × List Lexeme)}
    {ls rest : List Lexeme} {a : α} (shorter : rest.length ≤ ls.length)
    (run : ∀ fuel, ls.length ≤ fuel → reader (fuel + 1) ls = some (a, rest)) :
    Finds reader ls a rest := by
  refine ⟨shorter, fun fuel enough => ?_⟩
  cases fuel with
  | zero => cases enough
  | succ fuel => exact run fuel (Nat.le_of_lt_succ enough)

theorem Finds.of_cons {α : Type} {reader : Nat → List Lexeme → Option (α × List Lexeme)}
    {y : Lexeme} {ls rest : List Lexeme} {a : α} (shorter : rest.length ≤ ls.length)
    (run : ∀ fuel, ls.length < fuel → reader (fuel + 1) (y :: ls) = some (a, rest)) :
    Finds reader (y :: ls) a rest :=
  .of_step (Nat.le_succ_of_le shorter) run

/-- No operator that binds at least as closely as the level follows, and no
further part of a pattern unless the level is above it. -/
def Stops (level : Nat) : List Lexeme → Prop
  | .word w :: _ => ∀ rank ∈ w.rank?, rank < level
  | _ => True

theorem Stops.mono {low high : Nat} {ls : List Lexeme} (stops : Stops low ls)
    (above : low ≤ high) : Stops high ls := by
  unfold Stops at *
  split
  · next w rest => exact fun rank found => Nat.lt_of_lt_of_le (stops rank found) above
  · trivial

theorem stops_of_rank? {w : Word} {rank level : Nat} (found : w.rank? = some rank)
    (below : rank < level) (ls : List Lexeme) : Stops level (.word w :: ls) := by
  intro rank' found'
  cases found.symm.trans found'
  exact below

theorem stops_of_none {w : Word} (none : w.rank? = none) (level : Nat) (ls : List Lexeme) :
    Stops level (.word w :: ls) := by
  intro rank found
  cases none.symm.trans found

variable {issued : String → Param}

/-- The lexeme may come first in an operand. -/
def leads (issued : String → Param) : Lexeme → Bool
  | .hole (.element token _) => !(issued token).isArray
  | .word .nothing | .word .wildcard => false
  | _ => true

/-- A scalar may come first between parentheses, so the first hole has to be known for one. -/
theorem array?_of_leads {x : Lexeme} (first : leads issued x) (ls : List Lexeme) :
    array? issued (.word .opening :: x :: ls) = none := by
  unfold array?
  split
  · next same =>
    cases same
    simpa [leads] using first
  · rfl

abbrev Reads (issued : String → Param) (level : Nat) :=
  Finds fun fuel ls => read issued fuel level ls

abbrev Climbs (issued : String → Param) (level : Nat) (e : Expr) :=
  Finds fun fuel ls => climb issued fuel level e ls

variable {level : Nat} {e e' l r : Expr} {ls ls' ls'' rest : List Lexeme}

theorem reads_atom {x : Lexeme} (atom : atom? issued x = some e)
    (onward : Climbs issued level e ls e' rest) : Reads issued level (x :: ls) e' rest := by
  refine .of_cons onward.shorter fun fuel enough => ?_
  unfold read
  rw [atom]
  exact onward.run fuel enough

theorem reads_enclosed (inner : Reads issued 0 ls e (.word .closing :: ls'))
    (onward : Climbs issued level e ls' e' rest) :
    Reads issued level (.word .opening :: ls) e' rest := by
  have shorter := inner.shorter
  have shorter' := onward.shorter
  simp only [List.length_cons] at shorter
  refine .of_cons (by omega) fun fuel enough => ?_
  simp only [read, atom?, inner.run fuel enough, expect?, onward.run fuel (by omega),
    Option.bind_eq_bind, Option.bind_some, ↓reduceIte]

theorem reads_ahead {op : UnaryOperator} (operand : Reads issued (op.precedence + 1) ls e ls')
    (onward : Climbs issued level (.unary op e) ls' e' rest) :
    Reads issued level (.word (.ahead op) :: ls) e' rest := by
  have shorter := operand.shorter
  have shorter' := onward.shorter
  refine .of_cons (by omega) fun fuel enough => ?_
  simp only [read, atom?, operand.run fuel enough, onward.run fuel (by omega),
    Option.bind_eq_bind, Option.bind_some]

theorem reads_upper
    (left : Reads issued 0 ls l (.word .closing :: .word (.sign .equal) :: .word .upper :: ls'))
    (right : Reads issued 0 ls' r (.word .closing :: ls''))
    (onward : Climbs issued level (.binary .iexact l r) ls'' e' rest) :
    Reads issued level (.word .upper :: ls) e' rest := by
  have shorter := left.shorter
  have shorter' := right.shorter
  have shorter'' := onward.shorter
  simp only [List.length_cons] at shorter shorter'
  refine .of_cons (by omega) fun fuel enough => ?_
  simp only [read, atom?, left.run fuel enough, right.run fuel (by omega), expect?,
    onward.run fuel (by omega), Option.bind_eq_bind, Option.bind_some, ↓reduceIte]

theorem reads_cases {whens : List (Expr × Expr)} {otherwise : Option Expr}
    (branches : Finds (readBranches issued) ls whens ls')
    (last : Finds (readOtherwise issued) ls' otherwise (.word .ending :: ls''))
    (onward : Climbs issued level (.cases whens otherwise) ls'' e' rest) :
    Reads issued level (.word .cases :: ls) e' rest := by
  have shorter := branches.shorter
  have shorter' := last.shorter
  have shorter'' := onward.shorter
  simp only [List.length_cons] at shorter'
  refine .of_cons (by omega) fun fuel enough => ?_
  simp only [read, atom?, branches.run fuel enough, last.run fuel (by omega), expect?,
    onward.run fuel (by omega), Option.bind_eq_bind, Option.bind_some, ↓reduceIte]

/-- A looser operator ends the climb. -/
theorem climbs_stop (stops : Stops level ls) (e : Expr) : Climbs issued level e ls e ls := by
  refine .of_step (Nat.le_refl _) fun fuel _ => ?_
  unfold climb
  split
  · next w behind =>
    split
    · rfl
    · next rank joint found =>
      exact if_neg (Nat.not_le_of_lt (stops rank (Word.rank?_of_joint? found)))
  · rfl

/-- So does a further part of a pattern. -/
theorem climbs_joined (level : Nat) (e : Expr) (ls : List Lexeme) :
    Climbs issued level e (.word .joined :: ls) e (.word .joined :: ls) :=
  .of_step (Nat.le_refl _) fun _ _ => rfl

theorem climbs_behind {op : UnaryOperator} (close : level ≤ op.precedence)
    (onward : Climbs issued level (.unary op e) ls e' rest) :
    Climbs issued level e (.word (.behind op) :: ls) e' rest := by
  refine .of_cons onward.shorter fun fuel enough => ?_
  simp only [climb, Word.joint?, if_pos close]
  exact onward.run fuel enough

theorem climbs_between {w : Word} {op : BinaryOperator} {rank : Nat}
    (found : w.joint? = some (rank, .between op)) (close : level ≤ rank)
    (right : Reads issued (rank + 1) ls r ls')
    (onward : Climbs issued level (.binary op e r) ls' e' rest) :
    Climbs issued level e (.word w :: ls) e' rest := by
  have shorter := right.shorter
  have shorter' := onward.shorter
  refine .of_cons (by omega) fun fuel enough => ?_
  simp only [climb, found, if_pos close, right.run fuel enough, onward.run fuel (by omega),
    Option.bind_eq_bind, Option.bind_some]

theorem climbs_members (close : level ≤ BinaryOperator.isIn.precedence)
    (right : Finds (readMembers issued) ls r ls')
    (onward : Climbs issued level (.binary .isIn e r) ls' e' rest) :
    Climbs issued level e (.word (.sign .isIn) :: ls) e' rest := by
  have shorter := right.shorter
  have shorter' := onward.shorter
  refine .of_cons (by omega) fun fuel enough => ?_
  simp only [climb, Word.joint?, if_pos close, right.run fuel enough, onward.run fuel (by omega),
    Option.bind_eq_bind, Option.bind_some]

theorem length_wildcardAhead (ls : List Lexeme) : (wildcardAhead ls).2.length ≤ ls.length := by
  unfold wildcardAhead
  split
  · simp only [List.length_cons]
    omega
  · exact Nat.le_refl _

theorem length_wildcardBehind (ls : List Lexeme) : (wildcardBehind ls).2.length ≤ ls.length := by
  unfold wildcardBehind
  split
  · simp only [List.length_cons]
    omega
  · exact Nat.le_refl _

/-- A pattern, from the wildcard in front of its text to the one behind. -/
theorem climbs_search {w : Word} {op : BinaryOperator} {rank : Nat} {ignoreCase : Bool}
    {wildcards : Bool × Bool} {text back : List Lexeme}
    (found : w.joint? = some (rank, .search ignoreCase)) (close : level ≤ rank)
    (ahead : wildcardAhead ls = (wildcards.1, text)) (right : Reads issued (rank + 1) text r back)
    (behind : wildcardBehind back = (wildcards.2, ls'))
    (search : search? ignoreCase wildcards.1 wildcards.2 = some op)
    (onward : Climbs issued level (.binary op e r) ls' e' rest) :
    Climbs issued level e (.word w :: ls) e' rest := by
  have cut : text.length ≤ ls.length := by
    simpa only [ahead] using length_wildcardAhead ls
  have cut' : ls'.length ≤ back.length := by
    simpa only [behind] using length_wildcardBehind back
  have shorter := right.shorter
  have shorter' := onward.shorter
  refine .of_cons (by omega) fun fuel enough => ?_
  simp only [climb, found, if_pos close, ahead, right.run fuel (by omega), behind, search,
    onward.run fuel (by omega), Option.bind_eq_bind, Option.bind_some]

/-- An array says how many lexemes it takes: two for each element, and one. -/
theorem members_array {p : Param} (isArray : p.isArray) (known : issued p.token = p)
    (index : Nat) :
    Finds (readMembers issued) (.word .opening :: .hole (.element p.token index) :: ls) (.param p)
      (ls.drop (2 * p.slots - 1)) := by
  have behind : (Lexeme.word .opening :: .hole (.element p.token index) :: ls).drop
      (2 * p.slots + 1) = ls.drop (2 * p.slots - 1) := by
    obtain ⟨n, slots⟩ := Nat.exists_eq_succ_of_ne_zero (Nat.ne_of_gt p.slots_pos)
    rw [slots]
    rfl
  refine .of_step (by simp only [List.length_drop, List.length_cons]; omega) fun fuel _ => ?_
  simp only [readMembers, array?, known, isArray, behind, ↓reduceIte]

theorem members_nothing :
    Finds (readMembers issued)
      (.word .opening :: .word .nothing :: .word .closing :: rest) (.list []) rest :=
  .of_step (by simp only [List.length_cons]; omega) fun _ _ => rfl

theorem members_list {x : Lexeme} {es : List Expr} (first : leads issued x)
    (item : Reads issued 0 (x :: ls) e ls')
    (more : Finds (readMore issued) ls' es (.word .closing :: rest)) :
    Finds (readMembers issued) (.word .opening :: x :: ls) (.list (e :: es)) rest := by
  have shorter := item.shorter
  have shorter' := more.shorter
  rw [List.length_cons] at shorter'
  refine .of_cons (by omega) fun fuel enough => ?_
  unfold readMembers
  rw [array?_of_leads first]
  simp only
  split
  · next same =>
    cases same
    cases first
  · next same =>
    cases same
    simp only [item.run fuel enough, more.run fuel (by omega), expect?, Option.bind_eq_bind,
      Option.bind_some, ↓reduceIte]
    rfl
  · next other => exact absurd rfl (other _)

theorem more_none {w : Word} (other : w ≠ .comma) (ls : List Lexeme) :
    Finds (readMore issued) (.word w :: ls) [] (.word w :: ls) := by
  refine .of_step (Nat.le_refl _) fun fuel _ => ?_
  simp only [readMore, expect?, if_neg other]

theorem more_cons {es : List Expr} (item : Reads issued 0 ls e ls')
    (more : Finds (readMore issued) ls' es rest) :
    Finds (readMore issued) (.word .comma :: ls) (e :: es) rest := by
  have shorter := item.shorter
  have shorter' := more.shorter
  refine .of_cons (by omega) fun fuel enough => ?_
  simp only [readMore, expect?, item.run fuel enough, more.run fuel (by omega),
    Option.bind_eq_bind, Option.bind_some, ↓reduceIte]
  rfl

theorem branches_none {w : Word} (other : w ≠ .branch) (ls : List Lexeme) :
    Finds (readBranches issued) (.word w :: ls) [] (.word w :: ls) := by
  refine .of_step (Nat.le_refl _) fun fuel _ => ?_
  simp only [readBranches, expect?, if_neg other]

theorem branches_cons {condition : Expr} {whens : List (Expr × Expr)}
    (asked : Reads issued 0 ls condition (.word .result :: ls'))
    (given : Reads issued 0 ls' e ls'') (more : Finds (readBranches issued) ls'' whens rest) :
    Finds (readBranches issued) (.word .branch :: ls) ((condition, e) :: whens) rest := by
  have shorter := asked.shorter
  have shorter' := given.shorter
  have shorter'' := more.shorter
  simp only [List.length_cons] at shorter
  refine .of_cons (by omega) fun fuel enough => ?_
  simp only [readBranches, asked.run fuel enough, expect?, given.run fuel (by omega),
    more.run fuel (by omega), Option.bind_eq_bind, Option.bind_some, ↓reduceIte]
  rfl

theorem otherwise_none {w : Word} (other : w ≠ .otherwise) (ls : List Lexeme) :
    Finds (readOtherwise issued) (.word w :: ls) none (.word w :: ls) := by
  refine .of_step (Nat.le_refl _) fun fuel _ => ?_
  simp only [readOtherwise, expect?, if_neg other]

theorem otherwise_some (given : Reads issued 0 ls e rest) :
    Finds (readOtherwise issued) (.word .otherwise :: ls) (some e) rest := by
  refine .of_cons given.shorter fun fuel enough => ?_
  simp only [readOtherwise, expect?, given.run fuel enough, Option.bind_eq_bind, Option.bind_some,
    ↓reduceIte]
  rfl

/-- What is found up to the last lexeme is the whole expression. -/
theorem readAll_of_reads (found : Reads issued 0 ls e []) : readAll issued ls = some e := by
  rw [readAll, found.run _ (Nat.lt_succ_self _)]

end Reader

end PreparedSql
