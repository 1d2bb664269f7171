import PreparedSql.Library.Author
import PreparedSql.Param.Argument
import PreparedSql.Proofs.ActionRuns
import PreparedSql.Proofs.ConditionTruth
import PreparedSql.Query.Basic

/-! Arrays that are filled up with NULL. A value that is among the items of an
array is still found; one that is not is now in doubt. A condition that asks for
more than it says without the filling selects no further row, and it selects the
same rows as long as no such doubt is turned around by `NOT`. -/
namespace PreparedSql

/-! ### Cleaning fills up -/

namespace Param

/-- The items do not fill the array, and there are some. -/
def Short (p : Param) (items : List Value) : Prop :=
  items ≠ [] ∧ items.length < p.slots

/-- An array whose items are cleaned is filled up with NULL. -/
theorem clean_items {p : Param} {types : Types} {t : FieldType} {items cleaned : List Value}
    (array : p.isArray = true) (typed : types.fieldType? p = some t)
    (fits : items.length ≤ p.slots)
    (eachCleaned : items.mapM (p.cleanOne t (types.isNullable p)) = .ok cleaned) (element : Value) :
    p.clean types (.value (.list (some items) element)) =
      .ok (cleaned ++ List.replicate (p.slots - cleaned.length) t.valuePrototype) := by
  obtain ⟨size, sized⟩ := Option.isSome_iff_exists.mp array
  have slots : p.slots = size := by simp [Param.slots, sized]
  have within : ¬ size < items.length := by omega
  have supplied : p.items (.list (some items) element) = .ok items := rfl
  simp only [clean, typed, sized, Argument.carried, supplied, slots]
  simp only [bind, Except.bind, if_neg within, eachCleaned, pure, Except.pure]

end Param

/-! ### Tests against an array that is filled up -/

/-- Two values for an array whose tests give the same truth, unless it is of a
kind: then what is not true is in doubt. -/
def Doubts (c : Comparison) (kind : Param → Prop) (row : Cells) (σ τ : Assignment) (p : Param) :
    Prop :=
  ∀ x, c.among x ((p.assigned σ).members row) = c.among x ((p.assigned τ).members row) ∨
    kind p ∧ c.among x ((p.assigned σ).members row) =
      (c.among x ((p.assigned τ).members row)).or .unknown

theorem members_assigned {p : Param} (array : p.isArray = true) (row : Cells) (σ : Assignment) :
    (p.assigned σ).members row = if σ p = [] then [.null] else σ p := by
  rw [Param.assigned, if_pos array]
  cases σ p with
  | nil => rfl
  | cons v vs => simp [Expr.members, Expr.operand, Function.comp_def]

/-- Filling up an array leaves a test in doubt that would not be true, when the
array has items and is not full. -/
theorem doubts_filled {c : Comparison} {row : Cells} {items : Param → List Value}
    {σ τ : Assignment} {p : Param} {t : FieldType} (array : p.isArray = true)
    (filled : σ p = τ p ++ List.replicate (p.slots - (τ p).length) t.valuePrototype)
    (length : (τ p).length = (items p).length) :
    Doubts c (fun p => p.Short (items p)) row σ τ p := by
  intro x
  have positive := p.slots_pos
  rw [members_assigned array, members_assigned array]
  obtain full | ⟨more, missing⟩ : p.slots - (τ p).length = 0 ∨
      ∃ more, p.slots - (τ p).length = more + 1 := by
    cases p.slots - (τ p).length with
    | zero => exact .inl rfl
    | succ more => exact .inr ⟨more, rfl⟩
  · -- nothing is filled up
    rw [full, List.replicate_zero, List.append_nil] at filled
    rw [filled]
    exact .inl rfl
  · have nulls := c.among_nulls x t.isNull_valuePrototype more
    rw [missing] at filled
    have some : σ p ≠ [] := by simp [filled]
    rw [if_neg some, filled, c.among_append, nulls]
    by_cases none : τ p = []
    · -- a list without items is written as a list of NULL
      rw [if_pos none, none]
      have doubt : c.among x [.null] = .unknown := c.among_nulls x rfl 0
      exact .inl doubt.symm
    · rw [if_neg none]
      refine .inr ⟨⟨?_, by omega⟩, rfl⟩
      intro empty
      rw [empty, List.length_nil, List.length_eq_zero_iff] at length
      exact none length

namespace Expr

/-- Under `NOT` an even number of times, if the condition itself is, stand all
arrays of a kind. -/
def EvenlyNegated (kind : Param → Prop) : Bool → Expr → Prop
  | even, unary .not e => EvenlyNegated kind (!even) e
  | even, binary .and l r | even, binary .or l r =>
    EvenlyNegated kind even l ∧ EvenlyNegated kind even r
  | even, binary .isIn _ (param p) => even = true ∨ ¬ kind p
  | _, _ => True

section
variable {c : Comparison} {row : Cells} {kind : Param → Prop} {σ τ : Assignment}

private theorem array_of_isArray {e : Expr} (array : e.isArray = true) :
    ∃ p, e = .param p ∧ p.isArray = true := by
  cases e with
  | param p => exact ⟨p, rfl, array⟩
  | _ => cases array

private theorem truthOf_isIn {l : Expr} {p : Param} (operand : l.isOperand = true)
    (σ : Assignment) :
    ((binary .isIn l (.param p)).assign σ).truthOf c row =
      c.among (l.operand row) ((p.assigned σ).members row) := by
  simp only [assign, truthOf, assign_operand σ operand]

/-- What is certain of a row with doubtful arrays is so without the doubts. -/
theorem vaguer_of_doubts {e : Expr} (condition : e.isCondition = true)
    (doubts : ∀ p, .param p ∈ e.leaves → Doubts c kind row σ τ p) :
    Truth.Vaguer ((e.assign σ).truthOf c row) ((e.assign τ).truthOf c row) := by
  fun_induction isCondition e with
  | case1 e ih => exact Truth.vaguer_not (ih condition doubts)
  | case2 l r ihl ihr =>
    obtain ⟨left, right⟩ := Bool.and_eq_true_iff.mp condition
    exact Truth.vaguer_and (ihl left fun p inside => doubts p (List.mem_append_left _ inside))
      (ihr right fun p inside => doubts p (List.mem_append_right _ inside))
  | case3 l r ihl ihr =>
    obtain ⟨left, right⟩ := Bool.and_eq_true_iff.mp condition
    exact Truth.vaguer_or (ihl left fun p inside => doubts p (List.mem_append_left _ inside))
      (ihr right fun p inside => doubts p (List.mem_append_right _ inside))
  | case4 l r =>
    obtain ⟨operand, array⟩ := Bool.and_eq_true_iff.mp condition
    obtain ⟨p, rfl, _⟩ := array_of_isArray array
    rw [truthOf_isIn operand, truthOf_isIn operand]
    rcases doubts p (by simp [leaves]) (l.operand row) with same | ⟨_, doubted⟩
    · rw [same]
      exact Truth.vaguer_refl _
    · rw [doubted]
      exact Truth.vaguer_or_unknown _
  | case5 op l r noAnd noOr noIn =>
    simp only [Bool.and_eq_true] at condition
    rw [assign, assign_operand σ condition.1.2, assign_operand σ condition.2, assign,
      assign_operand τ condition.1.2, assign_operand τ condition.2]
    exact Truth.vaguer_refl _
  | case6 => cases condition

/-- The truth that survives an even number of `NOT`, or else an odd one. -/
def certainty : Bool → Truth
  | true => .yes
  | false => .no

private theorem not_certainty (t : Truth) (even : Bool) :
    t.not = certainty even ↔ t = certainty (!even) := by
  cases even <;> simp [certainty]

/-- Doubts under an even number of `NOT` do not show. -/
theorem certain_of_evenlyNegated {e : Expr} {even : Bool} (condition : e.isCondition = true)
    (doubts : ∀ p, .param p ∈ e.leaves → Doubts c kind row σ τ p)
    (negated : EvenlyNegated kind even e) :
    (e.assign σ).truthOf c row = certainty even ↔ (e.assign τ).truthOf c row = certainty even := by
  fun_induction isCondition e generalizing even with
  | case1 e ih =>
    have flipped : EvenlyNegated kind (!even) e := negated
    have inner := ih condition doubts flipped
    simpa only [assign, truthOf, not_certainty] using inner
  | case2 l r ihl ihr =>
    obtain ⟨left, right⟩ := Bool.and_eq_true_iff.mp condition
    have inLeft := ihl left (fun p inside => doubts p (List.mem_append_left _ inside)) negated.1
    have inRight := ihr right (fun p inside => doubts p (List.mem_append_right _ inside)) negated.2
    cases even with
    | true => simpa only [assign, truthOf, certainty, Truth.and_eq_yes] using and_congr inLeft inRight
    | false => simpa only [assign, truthOf, certainty, Truth.and_eq_no] using or_congr inLeft inRight
  | case3 l r ihl ihr =>
    obtain ⟨left, right⟩ := Bool.and_eq_true_iff.mp condition
    have inLeft := ihl left (fun p inside => doubts p (List.mem_append_left _ inside)) negated.1
    have inRight := ihr right (fun p inside => doubts p (List.mem_append_right _ inside)) negated.2
    cases even with
    | true => simpa only [assign, truthOf, certainty, Truth.or_eq_yes] using or_congr inLeft inRight
    | false => simpa only [assign, truthOf, certainty, Truth.or_eq_no] using and_congr inLeft inRight
  | case4 l r =>
    obtain ⟨operand, array⟩ := Bool.and_eq_true_iff.mp condition
    obtain ⟨p, rfl, _⟩ := array_of_isArray array
    rw [truthOf_isIn operand, truthOf_isIn operand]
    rcases doubts p (by simp [leaves]) (l.operand row) with same | ⟨ofKind, doubted⟩
    · rw [same]
    · obtain rfl | spared := negated
      · simp [doubted, certainty]
      · exact absurd ofKind spared
  | case5 op l r noAnd noOr noIn =>
    simp only [Bool.and_eq_true] at condition
    rw [assign, assign_operand σ condition.1.2, assign_operand σ condition.2, assign,
      assign_operand τ condition.1.2, assign_operand τ condition.2]
  | case6 => cases condition

private theorem leaves_operand {e : Expr} {p : Param} (operand : e.isOperand = true) :
    .param p ∉ e.leaves := by
  cases e with
  | column | reference | literal => simp [leaves]
  | _ => cases operand

/-- The parameters of a condition are arrays. -/
theorem array_of_condition {e : Expr} {p : Param} (condition : e.isCondition = true)
    (inside : .param p ∈ e.leaves) : p.isArray = true := by
  fun_induction isCondition e with
  | case1 e ih => exact ih condition inside
  | case2 l r ihl ihr | case3 l r ihl ihr =>
    obtain ⟨left, right⟩ := Bool.and_eq_true_iff.mp condition
    rcases List.mem_append.mp inside with inLeft | inRight
    · exact ihl left inLeft
    · exact ihr right inRight
  | case4 l r =>
    obtain ⟨operand, array⟩ := Bool.and_eq_true_iff.mp condition
    obtain ⟨q, rfl, isArray⟩ := array_of_isArray array
    rcases List.mem_append.mp inside with inLeft | inRight
    · exact absurd inLeft (leaves_operand operand)
    · cases List.mem_singleton.mp inRight
      exact isArray
  | case5 op l r noAnd noOr noIn =>
    simp only [Bool.and_eq_true] at condition
    rcases List.mem_append.mp inside with inLeft | inRight
    · exact absurd inLeft (leaves_operand condition.1.2)
    · exact absurd inRight (leaves_operand condition.2)
  | case6 => cases condition

/-- Filled up with NULL, the arrays of a condition let it select no row that it
does not select with the cleaned items alone. It selects the same rows when the
arrays that have items and are not full stand under `NOT` an even number of
times. -/
theorem selects_filled {e : Expr} {types : Types} {items cleaned : Param → List Value}
    (condition : e.isCondition = true)
    (fits : ∀ p, .param p ∈ e.leaves → (items p).length ≤ p.slots)
    (eachCleaned : ∀ p, .param p ∈ e.leaves → ∃ t, types.fieldType? p = some t ∧
      (items p).mapM (p.cleanOne t (types.isNullable p)) = .ok (cleaned p))
    (element : Value) :
    ∃ filled : Assignment,
      (∀ p, .param p ∈ e.leaves →
        p.clean types (.value (.list (some (items p)) element)) = .ok (filled p)) ∧
      (Selects c row (e.assign filled) → Selects c row (e.assign cleaned)) ∧
      (EvenlyNegated (fun p => p.Short (items p)) true e →
        (Selects c row (e.assign filled) ↔ Selects c row (e.assign cleaned))) := by
  let nothing (p : Param) : Value := ((types.fieldType? p).getD .text).valuePrototype
  let filled (p : Param) : List Value :=
    cleaned p ++ List.replicate (p.slots - (cleaned p).length) (nothing p)
  have doubts : ∀ p, .param p ∈ e.leaves →
      Doubts c (fun p => p.Short (items p)) row filled cleaned p := by
    intro p inside
    obtain ⟨t, typed, mapped⟩ := eachCleaned p inside
    have sized : filled p =
        cleaned p ++ List.replicate (p.slots - (cleaned p).length) t.valuePrototype := by
      simp [filled, nothing, typed]
    exact doubts_filled (array_of_condition condition inside) sized (Outcome.mapM_ok mapped).1
  refine ⟨filled, ?_, ?_, ?_⟩
  · intro p inside
    obtain ⟨t, typed, mapped⟩ := eachCleaned p inside
    rw [Param.clean_items (array_of_condition condition inside) typed (fits p inside) mapped]
    simp [filled, nothing, typed]
  · exact (vaguer_of_doubts condition doubts).1
  · exact certain_of_evenlyNegated condition doubts

end

section
open Library

/-- Two keys of authors. -/
def twoKeys : Param := .array "k" "keys" 2

def twoKeyTypes : Types := Types.empty.inferType twoKeys .integer

/-- The authors with one of the keys. -/
def byKeys : Expr := .binary .isIn (.column Author.idColumn) (.param twoKeys)

/-- A key among values. -/
def keyValue (n : Int) : Value := .int .int32 (some (Ranged.clamp .int32 n))

/-- Values compare by equality only. -/
def equality : Comparison
  | .equal, x, y => if x == y then .yes else .no
  | _, _, _ => .unknown

/-- One key for two places. Among the authors with other keys stands the second,
which is not selected once the missing key is NULL. -/
theorem excluded_key_not_selected : ∃ q j filled cleaned,
    (Query.exclude byKeys).exec (Query.ofModel Author.model) [] = ((.ok (), q), j) ∧
      q.condition = some (.unary .not byKeys) ∧
      twoKeys.clean twoKeyTypes (.value (.list (some [keyValue 1]) (.int .int32 none))) =
        .ok (filled twoKeys) ∧
      [keyValue 1].mapM (twoKeys.cleanOne .integer (twoKeyTypes.isNullable twoKeys)) =
        .ok (cleaned twoKeys) ∧
      ¬ Selects equality (fun _ => keyValue 2) ((unary .not byKeys).assign filled) ∧
      Selects equality (fun _ => keyValue 2) ((unary .not byKeys).assign cleaned) :=
  ⟨_, _, fun _ => [keyValue 1, .int .int32 none], fun _ => [keyValue 1], rfl, rfl, rfl, rfl,
    by decide, by decide⟩

/-- Authors who are not both without the keys and of a name. -/
def keyedOrRenamed : Expr :=
  .unary .not (.binary .and (.unary .not byKeys)
    (.binary .equal (.column Author.nameColumn) (.literal (.varchar (some "Kazuo Ishiguro")))))

theorem keyedOrRenamed_selects_filled : ∃ filled : Assignment,
    twoKeys.clean twoKeyTypes (.value (.list (some [keyValue 1]) (.int .int32 none))) =
        .ok (filled twoKeys) ∧
      (Selects equality (fun _ => keyValue 1) (keyedOrRenamed.assign filled) ↔
        Selects equality (fun _ => keyValue 1) (keyedOrRenamed.assign fun _ => [keyValue 1])) := by
  let one (_ : Param) : List Value := [keyValue 1]
  have only : ∀ p, .param p ∈ keyedOrRenamed.leaves → p = twoKeys := by
    simp [keyedOrRenamed, byKeys, leaves]
  have fits : ∀ p, .param p ∈ keyedOrRenamed.leaves → (one p).length ≤ p.slots := by
    intro p inside
    rw [only p inside]
    decide
  have eachCleaned : ∀ p, .param p ∈ keyedOrRenamed.leaves →
      ∃ t, twoKeyTypes.fieldType? p = some t ∧
        (one p).mapM (p.cleanOne t (twoKeyTypes.isNullable p)) = .ok (one p) := by
    intro p inside
    rw [only p inside]
    exact ⟨.integer, rfl, rfl⟩
  obtain ⟨filled, cleans, _, same⟩ := selects_filled rfl fits eachCleaned (.int .int32 none)
  exact ⟨filled, cleans twoKeys (by simp [keyedOrRenamed, byKeys, leaves]),
    same ⟨.inl rfl, trivial⟩⟩

end

end Expr

end PreparedSql
