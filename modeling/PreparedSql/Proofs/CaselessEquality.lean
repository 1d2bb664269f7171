import PreparedSql.Proofs.RangeRoundTrip

/-! Equality without regard to case in MySQL. Texts compare without regard to case there anyhow, so
the operator is written as plain equality, but its operands are written as they are, without the
parentheses of an equality. The text is that of the equality of the same operands just when neither
needs parentheses; an operand that binds less closely comes apart. -/
namespace PreparedSql.Expr

open BinaryOperator (equal iexact)

/-- The expression with plain equality for every equality without regard to case, operator by
operator. -/
def equated : Expr → Expr
  | binary op l r => binary (if op = iexact then equal else op) (equated l) (equated r)
  | unary op e => unary op (equated e)
  | e => e

/-- The operands of an equality need no parentheses. -/
def standApart (l r : Expr) : Bool :=
  equal.precedence ≤ l.precedence && equal.precedence < r.precedence

/-- Wherever case is disregarded in the expression, the operands need no parentheses. -/
def comparesApart : Expr → Bool
  | binary op l r => comparesApart l && comparesApart r && (op != iexact || standApart l r)
  | unary _ e => comparesApart e
  | _ => true

variable {issued : String → Param} {w : Manner} {e l r : Expr}

theorem precedence_equated (e : Expr) : e.equated.precedence = e.precedence := by
  cases e with
  | binary op l r =>
    show (if op = iexact then equal else op).precedence = op.precedence
    split
    · next same =>
      rw [same]
      rfl
    · rfl
  | _ => rfl

/-- The operands of an equality, in parentheses where they need some. -/
theorem write_equal (w : Manner) (l r : Expr) :
    (binary equal l r).write w =
      Piece.parenthesized (l.precedence < equal.precedence) (l.write w) ++
        .text " = " :: Piece.parenthesized (r.precedence ≤ equal.precedence) (r.write w) :=
  write_stands rfl l r

/-- The same operands as they are. -/
theorem write_iexact (mySql : w.flavor = .mysql) (l r : Expr) :
    (binary iexact l r).write w = l.write w ++ .text " = " :: r.write w := by
  have unwritten : iexact.between? = none := rfl
  simp [write, unwritten, mySql, Flavor.sameIgnoringCase]

theorem write_iexact_of_standApart (mySql : w.flavor = .mysql) (apart : standApart l r) :
    (binary iexact l r).write w = (binary equal l r).write w := by
  simp only [standApart, Bool.and_eq_true, decide_eq_true_eq] at apart
  rw [write_iexact mySql, write_equal, decide_eq_false (Nat.not_lt_of_le apart.1),
    decide_eq_false (Nat.not_le_of_lt apart.2)]
  rfl

/-- Operators are written alike around operands that are. -/
theorem write_binary_congr {op : BinaryOperator} {l' r' : Expr}
    (left : ∀ w : Manner, w.flavor = .mysql → l.write w = l'.write w)
    (right : ∀ w : Manner, w.flavor = .mysql → r.write w = r'.write w)
    (leftRank : l.precedence = l'.precedence) (rightRank : r.precedence = r'.precedence)
    (mySql : w.flavor = .mysql) : (binary op l r).write w = (binary op l' r').write w := by
  have behind (fragment : Fragment) := right { w with fragment := fragment } mySql
  simp only [write, left w mySql, behind, leftRank, rightRank]

/-- By induction on the expression: plain equality may stand wherever case is disregarded. -/
theorem write_equated (apart : e.comparesApart) :
    ∀ w : Manner, w.flavor = .mysql → e.write w = e.equated.write w := by
  induction e using equated.induct with
  | case1 op l r ihLeft ihRight =>
    simp only [comparesApart, Bool.and_eq_true, Bool.or_eq_true, bne_iff_ne] at apart
    obtain ⟨⟨leftApart, rightApart⟩, apart⟩ := apart
    intro w mySql
    have operands {op : BinaryOperator} :
        (binary op l r).write w = (binary op l.equated r.equated).write w :=
      write_binary_congr (ihLeft leftApart) (ihRight rightApart) (precedence_equated l).symm
        (precedence_equated r).symm mySql
    by_cases same : op = iexact
    · rw [equated, if_pos same, ← operands, same]
      exact write_iexact_of_standApart mySql (apart.resolve_left (absurd same))
    · rw [equated, if_neg same, operands]
  | case2 op e ih =>
    intro w mySql
    simp only [equated, write, ih apart w mySql, precedence_equated]
  | case3 e _ _ =>
    intro w mySql
    rw [equated]
    all_goals assumption

theorem length_texts_parenthesized (asked : Bool) (ps : List Piece) :
    (Piece.texts (Piece.parenthesized asked ps)).length =
      (Piece.texts ps).length + if asked then 2 else 0 := by
  cases asked with
  | false => rfl
  | true =>
    have opening : "(".length = 1 := rfl
    have closing : ")".length = 1 := rfl
    simp only [Piece.parenthesized, ↓reduceIte, Piece.texts, Piece.texts_append,
      String.length_append, String.length_empty, opening, closing]
    omega

/-- The lengths of the two texts tell whether there are parentheses. -/
theorem standApart_of_texts (mySql : w.flavor = .mysql)
    (same : Piece.texts ((binary iexact l r).write w) = Piece.texts ((binary equal l r).write w)) :
    standApart l r := by
  have lengths := congrArg String.length same
  rw [write_iexact mySql, write_equal, Piece.texts_append, Piece.texts_append, Piece.texts,
    Piece.texts] at lengths
  simp only [String.length_append, length_texts_parenthesized, decide_eq_true_eq] at lengths
  simp only [standApart, Bool.and_eq_true, decide_eq_true_eq]
  constructor
  · refine Nat.le_of_not_lt fun looser => ?_
    rw [if_pos looser] at lengths
    omega
  · refine Nat.lt_of_not_le fun looser => ?_
    rw [if_pos looser] at lengths
    omega

/-- In MySQL equality without regard to case has the text of the equality of the same operands just
when neither operand needs parentheses. An expression in which that is so throughout is read back,
alone and as an operand, with those equalities in it. -/
theorem iexact_comparesApart (mySql : w.flavor = .mysql) (fresh : w.fragment = .plain) :
    (∀ {e : Expr} {issued : String → Param}, e.comparesApart → e.equated.KeepsBounds →
      (∀ p, .param p ∈ e.equated.leaves → issued p.token = p) →
        Template.ofPieces (e.write w) = Template.ofPieces (e.equated.write w) ∧
          (Template.ofPieces (e.write w)).readRanges .mysql issued =
            some (e.equated.asWritten w)) ∧
    ∀ l r : Expr, Template.ofPieces ((binary iexact l r).write w) =
        Template.ofPieces ((binary equal l r).write w) ↔ standApart l r := by
  refine ⟨fun {e issued} apart keeps known => ?_, fun l r => ⟨fun same => ?_, fun apart => ?_⟩⟩
  · rw [write_equated apart w mySql, ← mySql]
    exact ⟨rfl, readRanges_of_keepsBounds fresh keeps known⟩
  · exact standApart_of_texts mySql (congrArg Template.text same)
  · rw [write_iexact_of_standApart mySql apart]

/-- The name, less a suffix, is not the one that is asked for. -/
def otherName : Expr :=
  unary .not (binary iexact
    (binary .subtraction (reference { name := "name" }) (reference { name := "suffix" }))
    (param (.scalar "t0" "name")))

theorem otherName_readBack :
    (Template.ofPieces (otherName.write { flavor := .mysql })).readRanges .mysql
        (fun _ => .scalar "t0" "name") = some (otherName.equated.asWritten { flavor := .mysql }) ∧
      standApart (binary .subtraction (reference { name := "name" }) (reference { name := "suffix" }))
        (param (.scalar "t0" "name")) := by
  have keeps : otherName.equated.KeepsBounds :=
    .unary .not (.binary rfl (.binary rfl (.reference _) (.reference _)) (.param _))
  obtain ⟨read, apart⟩ := iexact_comparesApart (w := { flavor := .mysql }) rfl rfl
  refine ⟨(read (e := otherName) rfl keeps ?_).2, (apart _ _).mp ?_⟩
  · simp [otherName, equated, leaves, Param.scalar]
  · exact congrArg Template.ofPieces rfl

/-- Whether either of two columns is the same as a third, without regard to case. -/
def eitherIs : Expr :=
  binary iexact (binary .or (reference { name := "nick" }) (reference { name := "name" }))
    (reference { name := "asked" })

/-- The first column comes to stand by itself: the text is that of another condition, and not that
of the equality. -/
theorem eitherIs_comesApart :
    Template.ofPieces (eitherIs.write { flavor := .mysql }) =
        Template.ofPieces ((binary .or (reference { name := "nick" }) (binary equal
          (reference { name := "name" }) (reference { name := "asked" }))).write
            { flavor := .mysql }) ∧
      Template.ofPieces (eitherIs.write { flavor := .mysql }) ≠
        Template.ofPieces (eitherIs.equated.write { flavor := .mysql }) := by
  refine ⟨congrArg Template.ofPieces rfl, fun same => ?_⟩
  have apart := standApart_of_texts rfl (congrArg Template.text same)
  revert apart
  decide

end PreparedSql.Expr
