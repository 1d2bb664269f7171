import PreparedSql.Proofs.ParameterSubstitution

/-! What a condition says of a row. A comparison with NULL is neither true nor
false, a connective says what its operands leave no doubt about, and a row is
selected when its condition is true. How a database compares two values that are
there is its own affair. -/
namespace PreparedSql

/-- The truth of a condition. -/
inductive Truth where
  | yes | no | unknown
  deriving DecidableEq, Repr

namespace Truth

def not : Truth → Truth
  | yes => no
  | no => yes
  | unknown => unknown

def and : Truth → Truth → Truth
  | yes, t => t
  | no, _ => no
  | unknown, no => no
  | unknown, _ => unknown

def or : Truth → Truth → Truth
  | no, t => t
  | yes, _ => yes
  | unknown, yes => yes
  | unknown, _ => unknown

@[simp] theorem not_eq_yes {t : Truth} : t.not = yes ↔ t = no := by
  cases t <;> simp [not]

@[simp] theorem not_eq_no {t : Truth} : t.not = no ↔ t = yes := by
  cases t <;> simp [not]

@[simp] theorem and_eq_yes {s t : Truth} : s.and t = yes ↔ s = yes ∧ t = yes := by
  cases s <;> cases t <;> simp [and]

@[simp] theorem and_eq_no {s t : Truth} : s.and t = no ↔ s = no ∨ t = no := by
  cases s <;> cases t <;> simp [and]

@[simp] theorem or_eq_yes {s t : Truth} : s.or t = yes ↔ s = yes ∨ t = yes := by
  cases s <;> cases t <;> simp [or]

@[simp] theorem or_eq_no {s t : Truth} : s.or t = no ↔ s = no ∧ t = no := by
  cases s <;> cases t <;> simp [or]

theorem or_assoc (r s t : Truth) : (r.or s).or t = r.or (s.or t) := by
  cases r <;> cases s <;> cases t <;> rfl

@[simp] theorem or_no (t : Truth) : t.or no = t := by
  cases t <;> rfl

/-- What is certain in the first is so in the second. -/
def Vaguer (s t : Truth) : Prop :=
  (s = yes → t = yes) ∧ (s = no → t = no)

theorem vaguer_refl (t : Truth) : Vaguer t t :=
  ⟨id, id⟩

theorem vaguer_not {s t : Truth} (vaguer : Vaguer s t) : Vaguer s.not t.not := by
  constructor
  · rw [not_eq_yes, not_eq_yes]
    exact vaguer.2
  · rw [not_eq_no, not_eq_no]
    exact vaguer.1

theorem vaguer_and {s t s' t' : Truth} (left : Vaguer s t) (right : Vaguer s' t') :
    Vaguer (s.and s') (t.and t') := by
  constructor
  · rw [and_eq_yes, and_eq_yes]
    exact And.imp left.1 right.1
  · rw [and_eq_no, and_eq_no]
    exact Or.imp left.2 right.2

theorem vaguer_or {s t s' t' : Truth} (left : Vaguer s t) (right : Vaguer s' t') :
    Vaguer (s.or s') (t.or t') := by
  constructor
  · rw [or_eq_yes, or_eq_yes]
    exact Or.imp left.1 right.1
  · rw [or_eq_no, or_eq_no]
    exact And.imp left.2 right.2

/-- An alternative that is in doubt takes nothing from what is true, and leaves
nothing false. -/
theorem vaguer_or_unknown (t : Truth) : Vaguer (t.or unknown) t := by
  constructor
  · simp
  · simp

end Truth

/-- How a database compares two values that are there. -/
abbrev Comparison := BinaryOperator → Value → Value → Truth

/-- The values of a row by column. -/
abbrev Cells := ColumnRef → Value

namespace BinaryOperator

/-- The operator compares one value with another. -/
def compares : BinaryOperator → Bool
  | equal | notEqual | less | greater | lessEqual | greaterEqual | like | notLike | contains
  | icontains | startsWith | endsWith | iexact => true
  | _ => false

end BinaryOperator

namespace Comparison

/-- Nothing is known of a comparison with NULL. -/
def test (c : Comparison) (op : BinaryOperator) (x y : Value) : Truth :=
  if x.isNull || y.isNull then .unknown else c op x y

/-- A value is among others when it equals one of them. -/
def among (c : Comparison) (x : Value) : List Value → Truth
  | [] => .no
  | y :: ys => (c.test .equal x y).or (c.among x ys)

theorem among_append (c : Comparison) (x : Value) (ys zs : List Value) :
    c.among x (ys ++ zs) = (c.among x ys).or (c.among x zs) := by
  induction ys with
  | nil => rfl
  | cons y ys ih => rw [List.cons_append, among, among, ih, Truth.or_assoc]

/-- NULL among the values leaves in doubt whether the value is. -/
theorem among_nulls (c : Comparison) (x : Value) {nothing : Value} (isNull : nothing.isNull = true)
    (more : Nat) : c.among x (List.replicate (more + 1) nothing) = .unknown := by
  have tested : c.test .equal x nothing = .unknown := by simp [test, isNull]
  induction more with
  | zero => simp [among, tested]
  | succ more ih => rw [List.replicate_succ, among, tested, ih]; rfl

end Comparison

namespace Expr

/-- A column or a literal. -/
def isOperand : Expr → Bool
  | column _ | reference _ | literal _ => true
  | _ => false

/-- The expression is an array that values are supplied for. -/
def isArray : Expr → Bool
  | param p => p.isArray
  | _ => false

/-- Comparisons of columns and literals and tests whether one is in an array,
joined by `AND`, `OR` and `NOT`. -/
def isCondition : Expr → Bool
  | unary .not e => isCondition e
  | binary .and l r | binary .or l r => isCondition l && isCondition r
  | binary .isIn l r => l.isOperand && r.isArray
  | binary op l r => op.compares && l.isOperand && r.isOperand
  | _ => false

/-- The value of a column or a literal. -/
def operand (row : Cells) : Expr → Value
  | column c => row c.ref
  | reference c => row c
  | literal v => v
  | _ => .null

/-- The members of a list; an empty one is written as a list of NULL. -/
def members (row : Cells) : Expr → List Value
  | list [] => [.null]
  | list items => items.map (operand row)
  | _ => []

/-- What a condition without parameters says of a row. -/
def truthOf (c : Comparison) (row : Cells) : Expr → Truth
  | unary .not e => (truthOf c row e).not
  | binary .and l r => (truthOf c row l).and (truthOf c row r)
  | binary .or l r => (truthOf c row l).or (truthOf c row r)
  | binary .isIn l r => c.among (l.operand row) (r.members row)
  | binary op l r => c.test op (l.operand row) (r.operand row)
  | _ => .unknown

/-- The condition selects the row. -/
def Selects (c : Comparison) (row : Cells) (e : Expr) : Prop :=
  e.truthOf c row = .yes

instance (c : Comparison) (row : Cells) (e : Expr) : Decidable (Selects c row e) :=
  inferInstanceAs (Decidable (_ = _))

/-- Values do not change what has no parameters. -/
theorem assign_operand {e : Expr} (σ : Assignment) (operand : e.isOperand = true) :
    e.assign σ = e := by
  cases e with
  | column | reference | literal => rfl
  | _ => cases operand

end Expr

end PreparedSql
