import PreparedSql.Proofs.ExpressionLeaves
import PreparedSql.Proofs.ExpressionReader
import PreparedSql.Proofs.WrittenExpressions

/-! A written expression is read back as it was. The reader stops behind an
expression as soon as what follows binds no closer than the expression holds
together; wherever that is not so, the expression stands in parentheses. -/
namespace PreparedSql

open Reader Lexeme

variable {issued : String → Param} {w : Manner} {level : Nat} {e l r x : Expr}
  {ls ts rest : List Lexeme}

namespace Reader

/-- The lexemes begin like an operand. -/
def Leads (issued : String → Param) : List Lexeme → Prop
  | y :: _ => leads issued y
  | [] => False

theorem leads_append (first : Leads issued ls) (ms : List Lexeme) : Leads issued (ls ++ ms) := by
  cases ls with
  | nil => cases first
  | cons y ls => exact first

theorem leads_parenthesized (asked : Bool) (first : Leads issued ls) :
    Leads issued (parenthesized asked ls) := by
  cases asked with
  | false => exact first
  | true => rfl

/-- What stands behind the text of a pattern. -/
def patternBack (wildcard : Bool) (ts : List Lexeme) : List Lexeme :=
  if wildcard then .word .joined :: .word .wildcard :: ts else ts

theorem wildcardAhead_pattern (wildcards : Bool × Bool) (first : Leads issued ls)
    (ts : List Lexeme) :
    wildcardAhead (pattern wildcards ls ++ ts) = (wildcards.1, ls ++ patternBack wildcards.2 ts) := by
  obtain ⟨before, after⟩ := wildcards
  have joined : (if after then ls ++ [.word .joined, .word .wildcard] else ls) ++ ts =
      ls ++ patternBack after ts := by
    cases after with
    | false => rfl
    | true => exact List.append_assoc _ _ _
  cases before with
  | true => exact congrArg (Prod.mk true) joined
  | false =>
    refine (congrArg wildcardAhead joined).trans ?_
    unfold wildcardAhead
    split
    · next same =>
      have first := leads_append first (patternBack after ts)
      rw [same] at first
      cases first
    · rfl

theorem wildcardBehind_patternBack (wildcard : Bool)
    (stops : Stops (BinaryOperator.like.precedence + 1) ts) :
    wildcardBehind (patternBack wildcard ts) = (wildcard, ts) := by
  cases wildcard with
  | true => rfl
  | false =>
    unfold wildcardBehind
    split
    · next same =>
      cases same
      exact absurd (stops _ rfl) (by decide)
    · rfl

theorem climbs_patternBack (wildcard : Bool) (stops : Stops level ts) (e : Expr) :
    Climbs issued level e (patternBack wildcard ts) e (patternBack wildcard ts) := by
  cases wildcard with
  | false => exact climbs_stop stops e
  | true => exact climbs_joined level e _

theorem stops_patternBack {wildcard : Bool} {precedence : Nat} (stops : Stops (precedence + 1) ts)
    (holds : wildcard → BinaryOperator.addition.precedence ≤ precedence) :
    Stops (precedence + 1) (patternBack wildcard ts) := by
  cases wildcard with
  | false => exact stops
  | true =>
    have above : BinaryOperator.addition.precedence - 1 < precedence + 1 :=
      Nat.lt_succ_of_le (Nat.le_trans (by decide) (holds rfl))
    exact stops_of_rank? (w := .joined) rfl above _

end Reader

/-- The expression is found where its lexemes stand, at any level that is not
above it, and the climb goes on behind it. -/
structure Expr.Readable (issued : String → Param) (w : Manner) (e : Expr) : Prop where
  leads : Leads issued (e.lexemes w)
  reads : ∀ {level : Nat} {ts rest : List Lexeme} {x : Expr}, level ≤ e.precedence →
    Stops (e.precedence + 1) ts → Climbs issued level (e.asWritten w) ts x rest →
    Reads issued level (e.lexemes w ++ ts) x rest

namespace Expr.Readable

/-- Nothing follows that the expression could go on with. -/
theorem alone (readable : Readable issued w e) (stops : Stops 0 ts) :
    Reads issued 0 (e.lexemes w ++ ts) (e.asWritten w) ts :=
  readable.reads (Nat.zero_le _) (stops.mono (Nat.zero_le _)) (climbs_stop stops _)

/-- An operand, in parentheses unless it holds together closely enough. -/
theorem operand (readable : Readable issued w e) {enclosed : Bool}
    (bare : enclosed = false → level ≤ e.precedence ∧ Stops (e.precedence + 1) ts)
    (onward : Climbs issued level (e.asWritten w) ts x rest) :
    Reads issued level (parenthesized enclosed (e.lexemes w) ++ ts) x rest := by
  cases enclosed with
  | false => exact readable.reads (bare rfl).1 (bare rfl).2 onward
  | true =>
    have inner := readable.alone (stops_of_none (w := .closing) rfl 0 ts)
    have same : parenthesized true (e.lexemes w) ++ ts =
        .word .opening :: (e.lexemes w ++ .word .closing :: ts) := by
      simp [parenthesized]
    rw [same]
    exact reads_enclosed inner onward

/-- The operand in front of an operator. -/
theorem before (readable : Readable issued w e) {word : Word} {rank : Nat}
    (ranked : word.rank? = some rank) (close : level ≤ rank) {enclosed : Bool}
    (bare : enclosed = false → rank ≤ e.precedence)
    (onward : Climbs issued level (e.asWritten w) (.word word :: ts) x rest) :
    Reads issued level (parenthesized enclosed (e.lexemes w) ++ .word word :: ts) x rest := by
  refine readable.operand (fun asked => ?_) onward
  have holds := bare asked
  exact ⟨Nat.le_trans close holds, stops_of_rank? ranked (Nat.lt_succ_of_le holds) ts⟩

/-- The operand behind an operator. -/
theorem behind (readable : Readable issued w e) {rank : Nat} {enclosed : Bool}
    (bare : enclosed = false → rank < e.precedence) (stops : Stops (rank + 1) ts) :
    Reads issued (rank + 1) (parenthesized enclosed (e.lexemes w) ++ ts) (e.asWritten w) ts := by
  refine readable.operand (fun asked => ?_) (climbs_stop stops _)
  have holds := bare asked
  exact ⟨holds, stops.mono (Nat.succ_le_succ (Nat.le_of_lt holds))⟩

end Expr.Readable

namespace Expr

theorem readable_atom {y : Lexeme} (written : e.lexemes w = [y])
    (atom : atom? issued y = some (e.asWritten w)) (first : Reader.leads issued y) :
    Readable issued w e where
  leads := by
    rw [written]
    exact first
  reads _ _ onward := by
    rw [written]
    exact reads_atom atom onward

theorem readable_unary (op : UnaryOperator) (operand : Readable issued w e) :
    Readable issued w (unary op e) where
  leads := by
    cases op with
    | negative | not => rfl
    | isNull | isNotNull => exact leads_append (leads_parenthesized _ operand.leads) _
  reads {level ts rest x} close stops onward := by
    rw [precedence] at close stops
    cases op with
    | negative | not => exact reads_ahead (operand.behind (by simp) stops) onward
    | isNull | isNotNull =>
      rw [lexemes, List.append_assoc]
      exact operand.before rfl close (by simp; omega) (climbs_behind close onward)

/-- An operator that is a word of its own. -/
theorem readable_sign {op : BinaryOperator} (written : op.between?.isSome)
    (joint : (Word.sign op).joint? = some (op.precedence, .between op))
    (encloses : op.closesRight = false) (left : Readable issued w l) (right : Readable issued w r) :
    Readable issued w (binary op l r) where
  leads := by
    rw [lexemes, if_pos written]
    exact leads_append (leads_parenthesized _ left.leads) _
  reads {level ts rest x} close stops onward := by
    rw [precedence] at close stops
    rw [lexemes, if_pos written, encloses, List.append_assoc]
    exact left.before (Word.rank?_of_joint? joint) close (by simp)
      (climbs_between joint close (right.behind (by simp) stops) onward)

theorem readable_isIn {members : Expr} (left : Readable issued w l)
    (found : ∀ ts, Finds (readMembers issued) (members.lexemes w ++ ts) (members.asWritten w) ts) :
    Readable issued w (binary .isIn l members) where
  leads := leads_append (leads_parenthesized _ left.leads) _
  reads {level ts rest x} close stops onward := by
    rw [precedence] at close stops
    have written : BinaryOperator.isIn.between?.isSome := rfl
    rw [lexemes, if_pos written, List.append_assoc]
    have ranked : (Word.sign .isIn).rank? = some BinaryOperator.isIn.precedence := rfl
    exact left.before ranked close (by simp) (climbs_members close (found ts) onward)

theorem readable_iexact (left : Readable issued w l) (right : Readable issued w r) :
    Readable issued w (binary .iexact l r) where
  leads := rfl
  reads {level ts rest x} _ _ onward := by
    have closes (ts : List Lexeme) : Stops 0 (.word .closing :: ts) := stops_of_none rfl 0 ts
    have same : (binary .iexact l r).lexemes w ++ ts =
        .word .upper :: (l.lexemes w ++ .word .closing :: .word (.sign .equal) :: .word .upper ::
          (r.lexemes w ++ .word .closing :: ts)) := by
      simp [lexemes, BinaryOperator.between?]
    rw [same]
    exact reads_upper (left.alone (closes _)) (right.alone (closes ts)) onward

/-- A text that is looked for, between the wildcards of its pattern. A wildcard
behind it keeps away what holds together less than the parts of a pattern. -/
theorem climbs_pattern (wildcards : Bool × Bool) {word : Word} {op : BinaryOperator}
    {ignoreCase enclosed : Bool}
    (joint : word.joint? = some (BinaryOperator.like.precedence, .search ignoreCase))
    (search : search? ignoreCase wildcards.1 wildcards.2 = some op)
    (close : level ≤ BinaryOperator.like.precedence) (text : Readable issued w r)
    (bare : enclosed = false → BinaryOperator.like.precedence < r.precedence ∧
      (wildcards.2 → BinaryOperator.addition.precedence ≤ r.precedence))
    (stops : Stops (BinaryOperator.like.precedence + 1) ts)
    (onward : Climbs issued level (.binary op e (r.asWritten w)) ts x rest) :
    Climbs issued level e
      (.word word :: (pattern wildcards (parenthesized enclosed (r.lexemes w)) ++ ts)) x rest := by
  have found : Reads issued (BinaryOperator.like.precedence + 1)
      (parenthesized enclosed (r.lexemes w) ++ patternBack wildcards.2 ts) (r.asWritten w)
      (patternBack wildcards.2 ts) := by
    refine text.operand (fun asked => ⟨(bare asked).1, ?_⟩) (climbs_patternBack _ stops _)
    exact stops_patternBack (stops.mono (Nat.succ_le_succ (Nat.le_of_lt (bare asked).1)))
      (bare asked).2
  exact climbs_search joint close (wildcardAhead_pattern wildcards
    (leads_parenthesized enclosed text.leads) ts) found (wildcardBehind_patternBack _ stops) search
    onward

/-- A search whose pattern has wildcards. -/
theorem readable_search {op : BinaryOperator} (unwritten : op.between? = none)
    (other : op ≠ .iexact) (left : Readable issued w l) (right : Readable issued w r) :
    Readable issued w (binary op l r) where
  leads := by
    rw [lexemes, unwritten, if_neg (by decide), if_neg other]
    exact leads_append (leads_parenthesized _ left.leads) _
  reads {level ts rest x} close stops onward := by
    have rank : op.precedence = BinaryOperator.like.precedence := by
      cases op <;> first | rfl | exact absurd rfl other | cases unwritten
    have searches : ∃ ignoreCase, (if op = .icontains then Word.ilike else .sign .like).joint? =
          some (BinaryOperator.like.precedence, .search ignoreCase) ∧
        search? ignoreCase op.wildcards.1 op.wildcards.2 = some op := by
      cases op <;> first | exact ⟨_, rfl, rfl⟩ | exact absurd rfl other | cases unwritten
    obtain ⟨ignoreCase, joint, search⟩ := searches
    have loose : BinaryOperator.like.precedence < BinaryOperator.addition.precedence := by decide
    rw [precedence, rank] at close stops
    rw [lexemes, unwritten, if_neg (by decide), if_neg other, List.append_assoc]
    refine left.before (Word.rank?_of_joint? joint) close (by simp [rank]) ?_
    refine climbs_pattern op.wildcards joint search close right (fun bare => ?_) stops onward
    have above : BinaryOperator.addition.precedence ≤ r.precedence := by
      simpa using bare
    exact ⟨Nat.lt_of_lt_of_le loose above, fun _ => above⟩

/-- A comparison with a pattern that is given as it is. -/
theorem readable_like (left : Readable issued w l) (right : Readable issued w r) :
    Readable issued w (binary .like l r) where
  leads := leads_append (leads_parenthesized _ left.leads) _
  reads {level ts rest x} close stops onward := by
    have written : BinaryOperator.like.between?.isSome := rfl
    rw [precedence] at close stops
    rw [lexemes, if_pos written, List.append_assoc]
    have ranked : (Word.sign .like).rank? = some BinaryOperator.like.precedence := rfl
    refine left.before ranked close (by simp) ?_
    refine climbs_pattern (false, false) rfl rfl close right (fun bare => ?_) stops onward
    have above : BinaryOperator.like.precedence < r.precedence := by
      simpa [BinaryOperator.closesRight] using bare
    exact ⟨above, fun asked => nomatch asked⟩

/-- An array with all its elements, whatever follows. -/
theorem finds_array {p : Param} (isArray : p.isArray) (known : issued p.token = p)
    (ts : List Lexeme) : Finds (readMembers issued) (p.lexemes ++ ts) (param p) ts := by
  obtain ⟨behind, written, size⟩ := p.lexemes_array isArray
  have found : Finds (readMembers issued)
      (.word .opening :: .hole (.element p.token 0) :: (behind ++ ts)) (param p)
      ((behind ++ ts).drop (2 * p.slots - 1)) := members_array isArray known 0
  rw [List.drop_left' size] at found
  rw [written]
  exact found

/-- What follows an item of a list does not go on with the item. -/
theorem stops_more (items : List Expr) (ts : List Lexeme) :
    Stops 0 (moreLexemes w items ++ .word .closing :: ts) := by
  cases items with
  | nil => exact stops_of_none rfl 0 _
  | cons e rest => exact stops_of_none (w := .comma) rfl 0 _

/-- Nor does what follows a branch. -/
theorem stops_branches (whens : List (Expr × Expr)) (stops : Stops 0 ts) :
    Stops 0 (branchLexemes w whens ++ ts) := by
  cases whens with
  | nil => exact stops
  | cons branch rest => exact stops_of_none (w := .branch) rfl 0 _

theorem readable_binary {op : BinaryOperator} (noMembers : op ≠ .isIn) (noRange : op ≠ .between)
    (left : Readable issued w l) (right : Readable issued w r) :
    Readable issued w (binary op l r) := by
  cases written : op.between? with
  | none =>
    by_cases same : op = .iexact
    · rw [same]
      exact readable_iexact left right
    · exact readable_search written same left right
  | some text =>
    by_cases pattern : op = .like
    · rw [pattern]
      exact readable_like left right
    · have encloses : op.closesRight = false := by
        cases op <;> first | rfl | exact absurd rfl noMembers | exact absurd rfl noRange
      exact readable_sign (by rw [written]; rfl) (Word.joint?_sign noMembers pattern) encloses left
        right

theorem readable_cases {whens : List (Expr × Expr)} {otherwise : Option Expr}
    (branches : ∀ {word : Word} (ts : List Lexeme), word ≠ .branch → word.rank? = none →
      Finds (readBranches issued) (branchLexemes w whens ++ .word word :: ts)
        (branchesAsWritten w whens) (.word word :: ts))
    (last : ∀ ts : List Lexeme, Finds (readOtherwise issued)
      (otherwiseLexemes w otherwise ++ .word .ending :: ts) (otherwiseAsWritten w otherwise)
      (.word .ending :: ts)) :
    Readable issued w (cases whens otherwise) where
  leads := rfl
  reads {level ts rest x} _ _ onward := by
    have first : Finds (readBranches issued)
        (branchLexemes w whens ++ (otherwiseLexemes w otherwise ++ .word .ending :: ts))
        (branchesAsWritten w whens) (otherwiseLexemes w otherwise ++ .word .ending :: ts) := by
      cases otherwise with
      | none => exact branches _ (by decide) rfl
      | some e => exact branches _ (by decide) rfl
    have same : (cases whens otherwise).lexemes w ++ ts = .word .cases ::
        (branchLexemes w whens ++ (otherwiseLexemes w otherwise ++ .word .ending :: ts)) := by
      simp [lexemes]
    rw [same]
    exact reads_cases first (last ts) onward

-- By the structure of the expression: the operands are readable, so they are
-- found with or without parentheses, and the reader goes on at their operator.
mutual

/-- Every plain expression is found where its lexemes stand. -/
theorem readable (w : Manner) : (e : Expr) → e.isPlain →
    (∀ p, .param p ∈ e.leaves → issued p.token = p) → Readable issued w e
  | column _, _, _ => readable_atom rfl rfl rfl
  | reference _, _, _ => readable_atom rfl rfl rfl
  | literal _, _, _ => readable_atom rfl rfl rfl
  | truth _, _, _ => readable_atom rfl rfl rfl
  | param p, plain, known => by
    rw [isPlain, Bool.not_eq_true'] at plain
    have same := known p (List.mem_singleton.mpr rfl)
    have written : (param p).lexemes w = [.hole (.element p.token 0)] := by
      rw [lexemes, Param.lexemes, Param.slots_of_scalar plain, plain]
      rfl
    have atom : atom? issued (.hole (.element p.token 0)) = some (param p) := by
      rw [atom?, same]
    exact readable_atom written atom (by rw [leads, same, plain]; rfl)
  | unary op e, plain, known => readable_unary op (readable w e plain known)
  | binary op l r, plain, known => by
    rw [isPlain, Bool.and_eq_true] at plain
    obtain ⟨plainLeft, plainRight⟩ := plain
    have knownLeft : ∀ p, .param p ∈ l.leaves → issued p.token = p :=
      fun p member => known p (List.mem_append_left _ member)
    have knownRight : ∀ p, .param p ∈ r.leaves → issued p.token = p :=
      fun p member => known p (List.mem_append_right _ member)
    have left := readable w l plainLeft knownLeft
    split at plainRight
    · next isIn =>
      rw [isIn]
      exact readable_isIn left (finds_members w r plainRight knownRight)
    · next noMembers =>
      rw [Bool.and_eq_true, bne_iff_ne] at plainRight
      have right := readable w r plainRight.2 knownRight
      exact readable_binary noMembers plainRight.1 left right
  | cases whens otherwise, plain, known => by
    rw [isPlain, Bool.and_eq_true] at plain
    exact readable_cases
      (finds_branches w whens plain.1 fun p member => known p (List.mem_append_left _ member))
      (finds_otherwise w otherwise plain.2 fun p member => known p (List.mem_append_right _ member))

theorem finds_members (w : Manner) : (e : Expr) → e.isMembers →
    (∀ p, .param p ∈ e.leaves → issued p.token = p) → ∀ ts : List Lexeme,
      Finds (readMembers issued) (e.lexemes w ++ ts) (e.asWritten w) ts
  | param p, isArray, known, ts => by
    exact finds_array isArray (known p (List.mem_singleton.mpr rfl)) ts
  | list [], _, _, ts => members_nothing
  | list (e :: items), plain, known, ts => by
    rw [isMembers, arePlain, Bool.and_eq_true] at plain
    have item := readable w e plain.1 fun p member => known p (List.mem_append_left _ member)
    have more := finds_more w items plain.2 (fun p member => known p (List.mem_append_right _ member))
      ts
    have found := item.alone (stops_more (w := w) items ts)
    have same : (list (e :: items)).lexemes w ++ ts = .word .opening ::
        (e.lexemes w ++ (moreLexemes w items ++ .word .closing :: ts)) := by
      simp [lexemes, itemLexemes]
    rw [same]
    have first := item.leads
    cases written : e.lexemes w with
    | nil =>
      rw [written] at first
      cases first
    | cons y behind =>
      rw [written] at first found
      exact members_list first found more

theorem finds_more (w : Manner) : (items : List Expr) → arePlain items →
    (∀ p, .param p ∈ itemLeaves items → issued p.token = p) → ∀ ts : List Lexeme,
      Finds (readMore issued) (moreLexemes w items ++ .word .closing :: ts)
        (itemsAsWritten w items) (.word .closing :: ts)
  | [], _, _, ts => more_none (by decide) ts
  | e :: items, plain, known, ts => by
    rw [arePlain, Bool.and_eq_true] at plain
    have item := readable w e plain.1 fun p member => known p (List.mem_append_left _ member)
    have more := finds_more w items plain.2 (fun p member => known p (List.mem_append_right _ member))
      ts
    have found := more_cons (item.alone (stops_more items ts)) more
    rw [moreLexemes, List.cons_append, List.append_assoc]
    exact found

theorem finds_branches (w : Manner) : (whens : List (Expr × Expr)) → areBranches whens →
    (∀ p, .param p ∈ branchLeaves whens → issued p.token = p) →
      ∀ {word : Word} (ts : List Lexeme), word ≠ .branch → word.rank? = none →
        Finds (readBranches issued) (branchLexemes w whens ++ .word word :: ts)
          (branchesAsWritten w whens) (.word word :: ts)
  | [], _, _, _, ts, other, _ => branches_none other ts
  | (condition, e) :: whens, plain, known, follower, ts, other, quiet => by
    rw [areBranches, Bool.and_eq_true, Bool.and_eq_true] at plain
    have asked := readable w condition plain.1
      fun p member => known p (List.mem_append_left _ member)
    have given := readable w e plain.2.1
      fun p member => known p (List.mem_append_right _ (List.mem_append_left _ member))
    have more := finds_branches w whens plain.2.2
      (fun p member => known p (List.mem_append_right _ (List.mem_append_right _ member)))
      ts other quiet
    have found := branches_cons (asked.alone (stops_of_none (w := .result) rfl 0 _))
      (given.alone (stops_branches whens (stops_of_none quiet 0 ts))) more
    have same : branchLexemes w ((condition, e) :: whens) ++ .word follower :: ts =
        .word .branch :: (condition.lexemes w ++ .word .result ::
          (e.lexemes w ++ (branchLexemes w whens ++ .word follower :: ts))) := by
      simp [branchLexemes]
    rw [same]
    exact found

theorem finds_otherwise (w : Manner) : (otherwise : Option Expr) → isOtherwise otherwise →
    (∀ p, .param p ∈ otherwiseLeaves otherwise → issued p.token = p) → ∀ ts : List Lexeme,
      Finds (readOtherwise issued) (otherwiseLexemes w otherwise ++ .word .ending :: ts)
        (otherwiseAsWritten w otherwise) (.word .ending :: ts)
  | none, _, _, ts => otherwise_none (by decide) ts
  | some e, plain, known, ts =>
    otherwise_some ((readable w e plain known).alone (stops_of_none (w := .ending) rfl 0 ts))

end

theorem readExpr_write (noMySql : w.flavor ≠ .mysql) (fresh : w.fragment = .plain)
    (plain : e.isPlain) (known : ∀ p, .param p ∈ e.leaves → issued p.token = p) :
    (Template.ofPieces (e.write w)).readExpr issued = some (e.asWritten w) := by
  have found : Reads issued 0 (e.lexemes w ++ []) (e.asWritten w) [] :=
    (readable w e plain known).alone trivial
  have cut := cuts_write noMySql fresh e plain [] fun _ _ same => nomatch same
  rw [List.append_nil, ofSymbols_nil, List.append_nil] at cut
  rw [List.append_nil] at found
  rw [Template.readExpr, Template.symbols_ofPieces, cut]
  exact readAll_of_reads found

/-- Writing loses nothing: a plain expression is read back from its text and its
holes, with the precedences it was written with, and so two expressions that are
written in the same way are the same. `issued` is the parameter of a token. -/
theorem write_losesNothing {e' : Expr} (noMySql : w.flavor ≠ .mysql) (fresh : w.fragment = .plain)
    (plain : e.isPlain) (plain' : e'.isPlain)
    (known : ∀ p, .param p ∈ e.leaves → issued p.token = p)
    (known' : ∀ p, .param p ∈ e'.leaves → issued p.token = p) :
    (Template.ofPieces (e.write w)).readExpr issued = some (e.asWritten w) ∧
      (Template.ofPieces (e.write w) = Template.ofPieces (e'.write w) →
        e.asWritten w = e'.asWritten w) := by
  have read := readExpr_write noMySql fresh plain known
  refine ⟨read, fun same => ?_⟩
  have read' := readExpr_write noMySql fresh plain' known'
  rw [same] at read
  exact Option.some.inj (read.symm.trans read')

/-- An amount that exceeds a parameter, and a search behind `NOT`. -/
def exceeding (amount : Expr) : Expr :=
  binary .and (binary .greater amount (param (.scalar "t0" "least")))
    (unary .not (binary .icontains (reference { name := "title" }) (param (.scalar "t1" "part"))))

/-- One column less the difference of two others. -/
def lessDifference : Expr :=
  binary .subtraction (reference { name := "total" })
    (binary .subtraction (reference { name := "sold" }) (reference { name := "returned" }))

/-- One column less another one, and less a third. -/
def differenceLess : Expr :=
  binary .subtraction
    (binary .subtraction (reference { name := "total" }) (reference { name := "sold" }))
    (reference { name := "returned" })

def leastOrPart (token : String) : Param :=
  if token = "t0" then .scalar "t0" "least" else .scalar "t1" "part"

/-- The parentheses of the difference are written: without them the two
conditions would have one text. -/
theorem exceeding_writtenApart :
    (Template.ofPieces ((exceeding lessDifference).write { flavor := .postgres })).readExpr
        leastOrPart = some ((exceeding lessDifference).asWritten { flavor := .postgres }) ∧
      Template.ofPieces ((exceeding lessDifference).write { flavor := .postgres }) ≠
        Template.ofPieces ((exceeding differenceLess).write { flavor := .postgres }) := by
  have known : ∀ p, .param p ∈ (exceeding lessDifference).leaves → leastOrPart p.token = p := by
    simp [exceeding, lessDifference, leaves, leastOrPart, Param.scalar]
  have known' : ∀ p, .param p ∈ (exceeding differenceLess).leaves → leastOrPart p.token = p := by
    simp [exceeding, differenceLess, leaves, leastOrPart, Param.scalar]
  have plain : (exceeding lessDifference).isPlain := rfl
  have plain' : (exceeding differenceLess).isPlain := rfl
  obtain ⟨read, apart⟩ := write_losesNothing (w := { flavor := .postgres }) (by decide) rfl plain
    plain' known known'
  refine ⟨read, fun same => ?_⟩
  have same := apart same
  simp [exceeding, lessDifference, differenceLess, asWritten] at same

end Expr

end PreparedSql
