import PreparedSql.Library.Author
import PreparedSql.Proofs.RegisteredParameters

/-! Changes of a query that are refused. A change first looks whether it may be made at all, and
what is refused there leaves the query as it was. Then it attaches the parameters that it brings
in, one by one, and the first of them whose name another one holds stops it on the way. What was
done up to there stays done: the parameters in front of it are attached already, and a query that
takes in another one has its condition already. -/
namespace PreparedSql

namespace Registry

variable {r r' : Registry} {j j' : Journal} {failure : Failure}

/-- The parameter is not held, and another one holds its name. -/
def Clashes (r : Registry) (p : Param) : Prop :=
  (r.byToken? p.token).isSome = false ∧ (r.get? p.name).isSome = true

/-- A parameter is refused when it clashes, and nothing happens then. -/
theorem attach_error {p : Param}
    (run : (attach p).exec r j = ((.error failure, r'), j')) :
    r.Clashes p ∧ failure = .duplicateParameterName p.name ∧ r' = r ∧ j' = j := by
  rw [attach, exec_visit] at run
  split at run
  · cases run
  · next unmet =>
    split at run
    · next named =>
      cases run
      exact ⟨⟨by simpa using unmet, named⟩, rfl, rfl, rfl⟩
    · cases run

/-- What is held stays, and nothing comes to it just when the parameter was held before. -/
theorem attach_grows {p : Param} (run : (attach p).exec r j = ((.ok (), r'), j')) :
    r.params <+: r'.params ∧ (r' = r ↔ (r.byToken? p.token).isSome = true) := by
  obtain ⟨_, called, passed⟩ := called_visit run
  cases called with
  | refused _ _ => cases passed
  | known held => exact ⟨List.prefix_refl _, fun _ => byToken?_isSome.mpr held, fun _ => rfl⟩
  | attached newToken _ =>
    refine ⟨List.prefix_append _ _, fun same => ?_, fun met => ?_⟩
    · have longer := congrArg (fun r => r.params.length) same
      simp at longer
    · obtain ⟨q, member, same⟩ := byToken?_isSome.mp met
      exact absurd same (newToken q member)

theorem attaching_grows {ps : List Param} (run : (ps.forM attach).exec r j = ((.ok (), r'), j')) :
    r.params <+: r'.params ∧ (r' = r ↔ ∀ p ∈ ps, (r.byToken? p.token).isSome = true) := by
  induction ps generalizing r j with
  | nil =>
    cases run
    exact ⟨List.prefix_refl _, fun _ p none => by simp at none, fun _ => rfl⟩
  | cons p ps ih =>
    obtain ⟨_, middle, _, first, rest⟩ := Action.exec_bind_ok.mp run
    obtain ⟨before, heldFirst⟩ := attach_grows first
    obtain ⟨after, heldRest⟩ := ih rest
    refine ⟨before.trans after, fun same => ?_, fun held => ?_⟩
    · -- what is in between is as it was, since it only grows
      subst same
      have still : middle.params = r'.params :=
        (after.eq_of_length_le before.length_le)
      obtain rfl : middle = r' := by
        cases middle
        cases r'
        exact congrArg Registry.mk still
      rw [List.forall_mem_cons]
      exact ⟨heldFirst.mp rfl, heldRest.mp rfl⟩
    · obtain ⟨head, tail⟩ := List.forall_mem_cons.mp held
      obtain rfl : middle = r := heldFirst.mpr head
      exact heldRest.mpr tail

/-- Attaching stops at a parameter that clashes with what is held by then. -/
theorem attaching_error {ps : List Param}
    (run : (ps.forM attach).exec r j = ((.error failure, r'), j')) :
    ∃ front p back, ps = front ++ p :: back ∧ (front.forM attach).exec r j = ((.ok (), r'), j') ∧
      r'.Clashes p ∧ failure = .duplicateParameterName p.name := by
  induction ps generalizing r j with
  | nil => cases run
  | cons p ps ih =>
    rcases Action.exec_bind_error run with first | ⟨_, middle, j₁, first, rest⟩
    · obtain ⟨clashes, duplicate, rfl, rfl⟩ := attach_error first
      exact ⟨[], p, ps, rfl, rfl, clashes, duplicate⟩
    · obtain ⟨front, p', back, rfl, attached, clashes, duplicate⟩ := ih rest
      refine ⟨p :: front, p', back, rfl, ?_, clashes, duplicate⟩
      exact Action.exec_bind_ok.mpr ⟨_, middle, j₁, first, attached⟩

end Registry

/-- A change of a query that may be refused. -/
inductive Change where
  | condition (e : Expr) (op : BinaryOperator)
  | exclusion (e : Expr)
  | ordering (order : Order) (e : Expr)
  | annotation (alias_ : String) (e : Expr)
  | window (low : Bound) (high : Option Bound)
  | merge (other : Query) (op : BinaryOperator)

namespace Change

open Query Registry

def act : Change → Action Query Unit
  | condition e op => addCondition e op
  | exclusion e => exclude e
  | ordering order e => addOrdering order e
  | annotation alias_ e => annotate alias_ e
  | window low high => slice low high
  | merge other op => combine other op

/-- Why the change may not be made at all, whatever its parameters are. -/
def refusal? (q : Query) : Change → Option Failure
  | condition _ _ | exclusion _ => if q.isSliced then some .filterAfterSlice else none
  | ordering _ _ => if q.isSliced then some .reorderAfterSlice else none
  | annotation alias_ _ =>
    if q.annotations.any (·.1 == alias_) then some (.conflictingAlias alias_) else none
  | window low high =>
    if q.isSliced && (q.low :: low :: (q.high.toList ++ high.toList)).any Bound.isParam then
      some .sliceByParameter
    else none
  | merge other _ =>
    if q.table ≠ other.table then some (.differentTables q.table.fullName other.table.fullName)
    else if q.isSliced || other.isSliced then some .combineAfterSlice
    else none

/-- The query with the condition of the other one taken in. -/
def merged (q other : Query) (op : BinaryOperator) : Query :=
  { q with condition := combined op q.condition other.condition }

/-- The parameters that the change meets, in order. -/
def met (q : Query) : Change → List Param
  | condition e _ | exclusion e | ordering _ e | annotation _ e => e.occurrences
  | window low high =>
    if q.isSliced then [] else (low.leaves ++ high.toList.flatMap Bound.leaves).filterMap Leaf.param?
  | merge other op => (merged q other op).leaves.filterMap Leaf.param?

/-- What is held before any of them is met. -/
def base (q : Query) : Change → Registry
  | merge _ _ => {}
  | _ => q.params

/-- What is left of the query when the change stops while these parameters are attached. -/
def interrupted (q : Query) (r : Registry) : Change → Query
  | merge other op => merged q other op
  | _ => { q with params := r }

/-- Nothing is left of the change that stops behind these parameters. -/
def Traceless (q : Query) (front : List Param) : Change → Prop
  | merge other op => combined op q.condition other.condition = q.condition
  | _ => ∀ p ∈ front, (q.params.byToken? p.token).isSome = true

variable {q q' : Query} {j j' : Journal} {failure : Failure}

/-! ### What stops a change -/

/-- A change that is guarded is refused by its guard, or fails behind it. -/
private theorem guarded_error {guarded : Prop} [Decidable guarded] {refusal : Failure}
    {rest : Action Query Unit}
    (run : (if guarded then (do throw refusal; rest) else rest : Action Query Unit).exec q j =
      ((.error failure, q'), j')) :
    (guarded ∧ refusal = failure ∧ q' = q ∧ j' = j) ∨
      (¬ guarded ∧ rest.exec q j = ((.error failure, q'), j')) := by
  split at run
  · next refused =>
    cases run
    exact .inl ⟨refused, rfl, rfl, rfl⟩
  · next admitted => exact .inr ⟨admitted, run⟩

/-- A change that brings in an expression is refused by its guard, or fails while the parameters
are attached. -/
private theorem bringing_error {guarded : Prop} [Decidable guarded] {refusal : Failure} {e : Expr}
    {f : Query → Query}
    (run : (if guarded then (do
          throw refusal
          registering (registerExpr e)
          modify f)
        else (do
          registering (registerExpr e)
          modify f) : Action Query Unit).exec q j = ((.error failure, q'), j')) :
    ((if guarded then some refusal else none) = some failure ∧ q' = q ∧ j' = j) ∨
      ((if guarded then some refusal else none) = none ∧ ∃ r,
        (e.occurrences.forM attach).exec q.params j = ((.error failure, r), j') ∧
        q' = { q with params := r }) := by
  rcases guarded_error run with ⟨refused, same, still⟩ | ⟨admitted, run⟩
  · exact .inl ⟨by rw [if_pos refused, same], still⟩
  · refine .inr ⟨if_neg admitted, ?_⟩
    rcases Action.exec_bind_error run with registered | ⟨_, _, _, _, changed⟩
    · obtain ⟨r, walked, left⟩ := exec_registering registered
      rw [registerExpr, walk_expr] at walked
      exact ⟨r, walked, left⟩
    · cases changed

/-- Bounds that are brought in fail while their parameters are attached, the lower one first. -/
private theorem bounding_error {low : Bound} {high : Option Bound} {f : Query → Query}
    (run : (do
        registering (low.walk visitor)
        high.forM fun b => registering (b.walk visitor)
        modify f : Action Query Unit).exec q j = ((.error failure, q'), j')) :
    ∃ r, (((low.leaves ++ high.toList.flatMap Bound.leaves).filterMap Leaf.param?).forM attach).exec
      q.params j = ((.error failure, r), j') ∧ q' = { q with params := r } := by
  rw [occurrences_append]
  rcases Action.exec_bind_error run with lower | ⟨_, _, j₁, lower, rest⟩
  · obtain ⟨r, walked, left⟩ := exec_registering lower
    rw [walk_bound] at walked
    refine ⟨r, ?_, left⟩
    rw [Action.exec_bind, walked]
  · obtain ⟨r₁, walked, rfl⟩ := exec_registering lower
    rw [walk_bound] at walked
    rcases Action.exec_bind_error rest with upper | ⟨_, _, _, _, changed⟩
    · cases high with
      | none => cases upper
      | some b =>
        obtain ⟨r, walked', left⟩ := exec_registering upper
        rw [walk_bound] at walked'
        refine ⟨r, ?_, left⟩
        rw [Action.exec_bind, walked, Option.toList_some, List.flatMap_singleton]
        exact walked'
    · cases changed

private theorem rowNumber_error {b : Bound} (failed : rowNumber b = .error failure) :
    failure = .sliceByParameter ∧ b.isParam = true := by
  cases b with
  | row n => cases failed
  | param p =>
    cases failed
    exact ⟨rfl, rfl⟩

private theorem rowNumber?_error {b : Option Bound} (failed : rowNumber? b = .error failure) :
    failure = .sliceByParameter ∧ b.toList.any Bound.isParam = true := by
  cases b with
  | none => cases failed
  | some b =>
    cases b with
    | row n => cases failed
    | param p =>
      cases failed
      exact ⟨rfl, rfl⟩

/-- A step that only computes fails without a trace. -/
private theorem computed_error {α : Type} {outcome : Except Failure α} {f : α → Action Query Unit}
    (run : (Action.ofExcept outcome >>= f).exec q j = ((.error failure, q'), j')) :
    (outcome = .error failure ∧ q' = q ∧ j' = j) ∨
      ∃ x, outcome = .ok x ∧ (f x).exec q j = ((.error failure, q'), j') := by
  rw [Action.exec_bind, Action.exec_ofExcept] at run
  cases outcome with
  | error other =>
    cases run
    exact .inl ⟨rfl, rfl, rfl⟩
  | ok x => exact .inr ⟨x, rfl, run⟩

/-- A window inside a window needs row numbers for all of its ends. -/
private theorem narrowing_error {low : Bound} {high : Option Bound}
    {f : Nat → Option Nat → Nat → Option Nat → Query → Query}
    (run : (do
        let currentLow ← Action.ofExcept (rowNumber q.low)
        let currentHigh ← Action.ofExcept (rowNumber? q.high)
        let low ← Action.ofExcept (rowNumber low)
        let high ← Action.ofExcept (rowNumber? high)
        modify (f currentLow currentHigh low high) : Action Query Unit).exec q j =
      ((.error failure, q'), j')) :
    (q.low :: low :: (q.high.toList ++ high.toList)).any Bound.isParam = true ∧
      failure = .sliceByParameter ∧ q' = q ∧ j' = j := by
  rcases computed_error run with ⟨failed, rfl, rfl⟩ | ⟨_, -, run⟩
  · obtain ⟨rfl, param⟩ := rowNumber_error failed
    exact ⟨by simp [param], rfl, rfl, rfl⟩
  rcases computed_error run with ⟨failed, rfl, rfl⟩ | ⟨_, -, run⟩
  · obtain ⟨rfl, param⟩ := rowNumber?_error failed
    exact ⟨by simp [param], rfl, rfl, rfl⟩
  rcases computed_error run with ⟨failed, rfl, rfl⟩ | ⟨_, -, run⟩
  · obtain ⟨rfl, param⟩ := rowNumber_error failed
    exact ⟨by simp [param], rfl, rfl, rfl⟩
  rcases computed_error run with ⟨failed, rfl, rfl⟩ | ⟨_, -, run⟩
  · obtain ⟨rfl, param⟩ := rowNumber?_error failed
    exact ⟨by simp [param], rfl, rfl, rfl⟩
  cases run

/-- A query that takes in another one fails while the parameters of both are attached, to a
registry apart. It has both conditions by then. -/
private theorem merging_error {other : Query} {op : BinaryOperator}
    (run : (do
        modify fun q => { q with condition := combined op q.condition other.condition }
        let params ← Action.separately {} ((← get).walk visitor)
        modify fun q => { q with params := params } : Action Query Unit).exec q j =
      ((.error failure, q'), j')) :
    ∃ r, (((merged q other op).leaves.filterMap Leaf.param?).forM attach).exec {} j =
      ((.error failure, r), j') ∧ q' = merged q other op := by
  rcases Action.exec_bind_error run with changed | ⟨_, _, _, changed, run⟩
  · cases changed
  cases changed
  rcases Action.exec_bind_error run with got | ⟨_, _, _, got, run⟩
  · cases got
  cases got
  rcases Action.exec_bind_error run with separate | ⟨_, _, _, _, installed⟩
  · rw [Action.exec_separately, walk_query] at separate
    rcases walked : (((merged q other op).leaves.filterMap Leaf.param?).forM attach).exec {} j with
      ⟨⟨outcome, r⟩, j₁⟩
    rw [merged] at walked
    rw [walked] at separate
    cases outcome with
    | ok _ => cases separate
    | error other =>
      cases separate
      exact ⟨r, rfl, rfl⟩
  · cases installed

/-- A change that is refused without a look at its parameters leaves the query as it is; behind
that look it stops while it attaches them. -/
theorem act_error (change : Change)
    (run : change.act.exec q j = ((.error failure, q'), j')) :
    (change.refusal? q = some failure ∧ q' = q ∧ j' = j) ∨
    (change.refusal? q = none ∧ ∃ r,
      ((change.met q).forM attach).exec (change.base q) j = ((.error failure, r), j') ∧
      q' = change.interrupted q r) := by
  cases change with
  | condition e op => exact bringing_error run
  | exclusion e => exact bringing_error run
  | ordering order e => exact bringing_error run
  | annotation alias_ e => exact bringing_error run
  | window low high =>
    rcases Action.exec_bind_error run with got | ⟨_, _, _, got, run⟩
    · cases got
    cases got
    split at run
    · next sliced =>
      obtain ⟨param, rfl, still⟩ := narrowing_error run
      exact .inl ⟨if_pos (by rw [sliced, param]; rfl), still⟩
    · next whole =>
      refine .inr ⟨if_neg (by simp [whole]), ?_⟩
      rw [met, if_neg whole]
      exact bounding_error run
  | merge other op =>
    rcases guarded_error run with ⟨apart, same, rest⟩ | ⟨sameTable, run⟩
    · exact .inl ⟨by rw [refusal?, if_pos apart, same], rest⟩
    rcases guarded_error run with ⟨sliced, same, rest⟩ | ⟨whole, run⟩
    · exact .inl ⟨by rw [refusal?, if_neg sameTable, if_pos sliced, same], rest⟩
    · exact .inr ⟨by rw [refusal?, if_neg sameTable, if_neg whole], merging_error run⟩

/-- A change that stops leaves no trace just when everything it attached was held before, or the
condition it merged was there already. -/
theorem interrupted_eq_iff {front : List Param} {r : Registry} (change : Change)
    (attached : (front.forM attach).exec (change.base q) j = ((.ok (), r), j')) :
    change.interrupted q r = q ↔ change.Traceless q front := by
  have registry (attached : (front.forM attach).exec q.params j = ((.ok (), r), j')) :
      { q with params := r } = q ↔ ∀ p ∈ front, (q.params.byToken? p.token).isSome = true := by
    rw [← (attaching_grows attached).2]
    exact ⟨fun same => congrArg Query.params same, fun same => by rw [same]⟩
  cases change with
  | merge other op => exact ⟨fun same => congrArg Query.condition same, fun same => by
      rw [interrupted, merged, same]⟩
  | _ => exact registry attached

/-- What a refused change leaves of a query. Whatever is refused without a look at its parameters
leaves the query as it is. Otherwise the change stops at the first parameter that clashes, and
what it did up to there stays done. A condition, an exclusion, an ordering, an annotation or a
window leaves the parameters in front of that one in the registry, and nothing else: the query is
as it was when all of them were held before. A query that takes in another one keeps its registry
and is left with the merged condition: it is as it was when that is the condition it had. -/
theorem refused_leaves (change : Change)
    (run : change.act.exec q j = ((.error failure, q'), j')) :
    (change.refusal? q = some failure ∧ q' = q ∧ j' = j) ∨
    (change.refusal? q = none ∧ ∃ front p back r,
      change.met q = front ++ p :: back ∧ failure = .duplicateParameterName p.name ∧
      (front.forM attach).exec (change.base q) j = ((.ok (), r), j') ∧ r.Clashes p ∧
      q' = change.interrupted q r ∧ (q' = q ↔ change.Traceless q front)) := by
  rcases act_error change run with refused | ⟨admitted, r, attaching, rfl⟩
  · exact .inl refused
  · obtain ⟨front, p, back, split, attached, clashes, duplicate⟩ := attaching_error attaching
    exact .inr ⟨admitted, front, p, back, r, split, duplicate, attached, clashes, rfl,
      interrupted_eq_iff change attached⟩

section
open Library

/-- Two parameters of one name. -/
def firstName : Param := .scalar "f" "name"
def otherName : Param := .scalar "o" "name"

/-- The name of an author is the value of the parameter. -/
def isNamed (p : Param) : Expr :=
  .binary .equal (.column Author.nameColumn) (.param p)

/-- The authors of the name that the first parameter stands for. -/
def namedAuthors : Query :=
  { ofModel Author.model with condition := some (isNamed firstName), params := ⟨[firstName]⟩ }

/-- The authors of the name that the other parameter stands for. -/
def otherAuthors : Query :=
  { ofModel Author.model with condition := some (isNamed otherName), params := ⟨[otherName]⟩ }

/-- A condition with two parameters of one name. -/
def twiceNamed : Change :=
  .condition (.binary .or (isNamed firstName) (isNamed otherName)) .and

theorem twiceNamed_leaves : ∃ left j front p back r,
    twiceNamed.act.exec (ofModel Author.model) [] =
      ((.error (.duplicateParameterName "name"), left), j) ∧
    twiceNamed.met (ofModel Author.model) = front ++ p :: back ∧ r.Clashes p ∧
    left = twiceNamed.interrupted (ofModel Author.model) r ∧
    (left = ofModel Author.model ↔ twiceNamed.Traceless (ofModel Author.model) front) := by
  obtain ⟨left, j, run⟩ : ∃ left j, twiceNamed.act.exec (ofModel Author.model) [] =
      ((.error (.duplicateParameterName "name"), left), j) := ⟨_, _, rfl⟩
  rcases refused_leaves twiceNamed run with
    ⟨refused, -⟩ | ⟨-, front, p, back, r, split, -, -, clashes, interrupted, traceless⟩
  · cases refused
  · exact ⟨left, j, front, p, back, r, run, split, clashes, interrupted, traceless⟩

/-- A refused condition leaves the first of two parameters in a registry that was empty, and a
refused intersection leaves its condition in a query that is not intersected. -/
theorem refused_changes_leave_traces :
    (∃ left j, twiceNamed.act.exec (ofModel Author.model) [] =
      ((.error (.duplicateParameterName "name"), left), j) ∧
      (ofModel Author.model).params.params = [] ∧ left.params.params = [firstName]) ∧
    (∃ left j, (merge otherAuthors .and).act.exec namedAuthors [] =
      ((.error (.duplicateParameterName "name"), left), j) ∧
      namedAuthors.condition = some (isNamed firstName) ∧
      left.condition = some (.binary .and (isNamed firstName) (isNamed otherName))) :=
  ⟨⟨_, _, rfl, rfl, rfl⟩, _, _, rfl, rfl, rfl⟩

end

end Change

end PreparedSql
