import PreparedSql.Proofs.RegisteredParameters
import PreparedSql.Query.Set

/-! Query sets as callers build them: all rows of a model, then one change after
the other. Whatever was built, the registry of the query holds the parameters
that occur in it and nothing else, no two under one token or name. -/
namespace PreparedSql

namespace Query

variable {issued : String → Param} {q q' : Query} {j j' : Journal} {p : Param}

/-- The registry holds the parameters of the query, each once, and nothing else. -/
structure Recorded (issued : String → Param) (q : Query) : Prop where
  proper : q.params.Proper issued
  members : ∀ p, p ∈ q.params.params ↔ .param p ∈ q.leaves

theorem issued_of_recorded (recorded : Recorded issued q) : q.Issued issued := by
  rintro p (occurs | member)
  · exact recorded.proper.issued p ((recorded.members p).mpr occurs)
  · exact recorded.proper.issued p member

/-- A parameter occurs in an annotation, in the condition, in an ordering or as a
bound. -/
theorem mem_leaves : .param p ∈ q.leaves ↔
    (∃ entry ∈ q.annotations, .param p ∈ entry.2.leaves) ∨
    (∃ e, q.condition = some e ∧ .param p ∈ e.leaves) ∨
    (∃ entry ∈ q.orderBy, .param p ∈ entry.2.leaves) ∨
    q.low = .param p ∨ q.high = some (.param p) := by
  have entries {α : Type} (es : List (α × Expr)) :
      (∃ e, (∃ entry ∈ es, entry.2 = e) ∧ .param p ∈ e.leaves) ↔
        ∃ entry ∈ es, .param p ∈ entry.2.leaves := by
    constructor
    · rintro ⟨_, ⟨entry, member, rfl⟩, inside⟩
      exact ⟨entry, member, inside⟩
    · rintro ⟨entry, member, inside⟩
      exact ⟨_, ⟨entry, member, rfl⟩, inside⟩
  simp only [leaves, frontLeaves, expressions, List.flatMap_append, List.mem_append,
    List.mem_flatMap, List.mem_map, Option.mem_toList, Bound.mem_leaves, or_assoc, entries,
    exists_eq_right]

theorem recorded_ofModel (m : Model) : Recorded issued (ofModel m) :=
  ⟨Registry.proper_empty issued, fun p => by
    simp [mem_leaves, ofModel, Bound.zero]⟩

/-- A change that attaches what it brings in keeps the registry exact. -/
private theorem recorded_of_takes {ps : List Param} (recorded : Recorded issued q)
    (takes : Registry.Takes issued q.params ps q'.params)
    (brought : ∀ p, .param p ∈ q'.leaves ↔ .param p ∈ q.leaves ∨ p ∈ ps) :
    Recorded issued q' := by
  refine ⟨takes.1, fun p => ?_⟩
  rw [takes.2, brought, recorded.members]

/-- Registering an expression takes in its parameters. -/
private theorem takes_of_registering {e : Expr} (recorded : Recorded issued q)
    (known : ∀ p, .param p ∈ e.leaves → issued p.token = p)
    (run : (registering (Registry.registerExpr e)).exec q j = ((.ok (), q'), j')) :
    ∃ r, Registry.Takes issued q.params (e.leaves.filterMap Leaf.param?) r ∧
      q' = { q with params := r } := by
  obtain ⟨r, walked, same⟩ := exec_registering run
  rw [Registry.registerExpr, Registry.walk_expr] at walked
  exact ⟨r, Registry.takes_of_run recorded.proper (fun p member => known p (Leaf.mem_params.mp member))
    walked, same⟩

private theorem or_second {a c e rest : Prop} :
    a ∨ (c ∨ e) ∨ rest ↔ (a ∨ c ∨ rest) ∨ e := by
  rw [or_right_comm, or_assoc, or_assoc, or_assoc]

private theorem or_third {a c o e rest : Prop} :
    a ∨ c ∨ (o ∨ e) ∨ rest ↔ (a ∨ c ∨ o ∨ rest) ∨ e :=
  (or_congr_right or_second).trans or_assoc.symm

theorem recorded_addCondition {e : Expr} {op : BinaryOperator} (recorded : Recorded issued q)
    (known : ∀ p, .param p ∈ e.leaves → issued p.token = p)
    (run : (addCondition e op).exec q j = ((.ok (), q'), j')) : Recorded issued q' := by
  obtain ⟨_, _, _, got, rest⟩ := Action.exec_bind_ok.mp run
  cases got
  split at rest
  · cases rest
  · obtain ⟨_, _, _, registered, changed⟩ := Action.exec_bind_ok.mp rest
    obtain ⟨r, takes, rfl⟩ := takes_of_registering recorded known registered
    cases changed
    refine recorded_of_takes recorded takes fun p => ?_
    simp only [Leaf.mem_params, mem_leaves]
    rw [← or_second]
    cases q.condition with
    | none => simp
    | some current => simp [Expr.leaves]

theorem recorded_addOrdering {e : Expr} {order : Order} (recorded : Recorded issued q)
    (known : ∀ p, .param p ∈ e.leaves → issued p.token = p)
    (run : (addOrdering order e).exec q j = ((.ok (), q'), j')) : Recorded issued q' := by
  obtain ⟨_, _, _, got, rest⟩ := Action.exec_bind_ok.mp run
  cases got
  split at rest
  · cases rest
  · obtain ⟨_, _, _, registered, changed⟩ := Action.exec_bind_ok.mp rest
    obtain ⟨r, takes, rfl⟩ := takes_of_registering recorded known registered
    cases changed
    refine recorded_of_takes recorded takes fun p => ?_
    simp only [Leaf.mem_params, mem_leaves, List.mem_append, List.mem_singleton, or_and_right,
      exists_or, exists_eq_left]
    exact or_third

theorem recorded_annotate {e : Expr} {alias_ : String} (recorded : Recorded issued q)
    (known : ∀ p, .param p ∈ e.leaves → issued p.token = p)
    (run : (annotate alias_ e).exec q j = ((.ok (), q'), j')) : Recorded issued q' := by
  obtain ⟨_, _, _, got, rest⟩ := Action.exec_bind_ok.mp run
  cases got
  split at rest
  · cases rest
  · obtain ⟨_, _, _, registered, changed⟩ := Action.exec_bind_ok.mp rest
    obtain ⟨r, takes, rfl⟩ := takes_of_registering recorded known registered
    cases changed
    refine recorded_of_takes recorded takes fun p => ?_
    simp only [Leaf.mem_params, mem_leaves, List.mem_append, List.mem_singleton, or_and_right,
      exists_or, exists_eq_left]
    exact or_right_comm

/-- Whatever leaves the registry and the occurrences alone keeps the registry
exact. -/
private theorem recorded_of_same (recorded : Recorded issued q) (params : q'.params = q.params)
    (leaves : ∀ p, .param p ∈ q'.leaves ↔ .param p ∈ q.leaves) : Recorded issued q' := by
  refine ⟨params ▸ recorded.proper, fun p => ?_⟩
  rw [params, leaves, recorded.members]

theorem recorded_reverse (recorded : Recorded issued q) : Recorded issued q.reverse := by
  refine recorded_of_same recorded rfl fun p => ?_
  have orderings : (∃ entry ∈ q.reverse.orderBy, .param p ∈ entry.2.leaves) ↔
      ∃ entry ∈ q.orderBy, .param p ∈ entry.2.leaves := by
    unfold reverse
    split
    · next empty =>
      rw [List.isEmpty_iff.mp empty]
      simp [Expr.leaves]
    · simp only [List.mem_map]
      constructor
      · rintro ⟨_, ⟨entry, member, rfl⟩, inside⟩
        exact ⟨entry, member, inside⟩
      · rintro ⟨entry, member, inside⟩
        exact ⟨_, ⟨entry, member, rfl⟩, inside⟩
  rw [mem_leaves, mem_leaves, orderings]
  rfl

/-- Registering a bound takes in its parameter. -/
private theorem takes_of_bound {b : Bound} (proper : q.params.Proper issued)
    (known : ∀ p, b = .param p → issued p.token = p)
    (run : (registering (b.walk Registry.visitor)).exec q j = ((.ok (), q'), j')) :
    ∃ r, Registry.Takes issued q.params (b.leaves.filterMap Leaf.param?) r ∧
      q' = { q with params := r } := by
  obtain ⟨r, walked, same⟩ := exec_registering run
  rw [Registry.walk_bound] at walked
  have bound : ∀ p ∈ b.leaves.filterMap Leaf.param?, issued p.token = p :=
    fun p member => known p (Bound.mem_leaves.mp (Leaf.mem_params.mp member))
  exact ⟨r, Registry.takes_of_run proper bound walked, same⟩

private theorem row_of_rowNumber {b : Bound} {n : Nat} (number : rowNumber b = .ok n) :
    b.isParam = false := by
  cases b with
  | row m => rfl
  | param p => cases number

private theorem rows_of_rowNumber? {b : Option Bound} {n : Option Nat}
    (number : rowNumber? b = .ok n) : ∀ x ∈ b, x.isParam = false := by
  rintro x ⟨⟩
  obtain ⟨m, number⟩ : ∃ m, rowNumber x = .ok m := by
    cases inner : rowNumber x with
    | ok m => exact ⟨m, rfl⟩
    | error failure =>
      rw [rowNumber?, inner] at number
      cases number
  exact row_of_rowNumber number

theorem recorded_slice {low : Bound} {high : Option Bound} (recorded : Recorded issued q)
    (known : ∀ p, .param p ∈ low :: high.toList → issued p.token = p)
    (run : (slice low high).exec q j = ((.ok (), q'), j')) : Recorded issued q' := by
  obtain ⟨_, _, _, got, rest⟩ := Action.exec_bind_ok.mp run
  cases got
  dsimp only at rest
  split at rest
  · -- Both windows are between row numbers, as is the one they make.
    obtain ⟨_, _, _, lowRow, rest⟩ := Action.exec_bind_ok.mp rest
    obtain ⟨_, _, _, highRow, rest⟩ := Action.exec_bind_ok.mp rest
    obtain ⟨_, _, _, innerLow, rest⟩ := Action.exec_bind_ok.mp rest
    obtain ⟨_, _, _, innerHigh, changed⟩ := Action.exec_bind_ok.mp rest
    simp only [Action.exec_ofExcept, Prod.mk.injEq] at lowRow highRow innerLow innerHigh
    obtain ⟨⟨lowRow, rfl⟩, rfl⟩ := lowRow
    obtain ⟨⟨highRow, rfl⟩, rfl⟩ := highRow
    obtain ⟨⟨_, rfl⟩, rfl⟩ := innerLow
    obtain ⟨⟨_, rfl⟩, rfl⟩ := innerHigh
    cases changed
    refine recorded_of_same recorded rfl fun p => ?_
    rw [leaves_of_rows (row_of_rowNumber lowRow) (rows_of_rowNumber? highRow),
      leaves_of_rows (by rfl)]
    · rfl
    · intro b member
      obtain ⟨n, _, rfl⟩ := Option.map_eq_some_iff.mp member
      rfl
  · next whole =>
    obtain ⟨fromZero, noHigh⟩ := bounds_of_whole (by simpa using whole)
    obtain ⟨_, _, _, lowRun, rest⟩ := Action.exec_bind_ok.mp rest
    obtain ⟨_, _, _, highRun, changed⟩ := Action.exec_bind_ok.mp rest
    obtain ⟨r, takesLow, rfl⟩ := takes_of_bound recorded.proper
      (fun p same => known p (by simp [same])) lowRun
    obtain ⟨r', takes, rfl⟩ : ∃ r', Registry.Takes issued q.params
        ((low.leaves ++ high.toList.flatMap Bound.leaves).filterMap Leaf.param?) r' ∧
        q' = { q with params := r', low := low, high := high } := by
      cases high with
      | none =>
        cases highRun
        cases changed
        exact ⟨r, by simpa using takesLow, rfl⟩
      | some b =>
        obtain ⟨r', takesHigh, rfl⟩ := takes_of_bound takesLow.1
          (fun p same => known p (by simp [same])) highRun
        cases changed
        refine ⟨r', ?_, rfl⟩
        rw [Option.toList_some, List.flatMap_singleton, List.filterMap_append]
        exact Registry.takes_append takesLow takesHigh
    refine recorded_of_takes recorded takes fun p => ?_
    simp only [Leaf.mem_params, mem_leaves, fromZero, noHigh, List.mem_append, List.mem_flatMap,
      Option.mem_toList, Bound.mem_leaves, exists_eq_right, reduceCtorEq, or_false, or_assoc]

/-- A parameter of a combined condition comes from one of the two. -/
theorem mem_combined {op : BinaryOperator} {l r : Option Expr} {e : Expr}
    (made : combined op l r = some e) (inside : .param p ∈ e.leaves) :
    (∃ x, l = some x ∧ .param p ∈ x.leaves) ∨ ∃ x, r = some x ∧ .param p ∈ x.leaves := by
  unfold combined at made
  split at made
  · cases made
    exact (List.mem_append.mp inside).imp (fun left => ⟨_, rfl, left⟩) fun right => ⟨_, rfl, right⟩
  · split at made
    · rcases Option.or_eq_some_iff.mp made with left | ⟨_, right⟩
      · exact .inl ⟨e, left, inside⟩
      · exact .inr ⟨e, right, inside⟩
    · cases made

/-- A combined query registers its parameters anew. -/
theorem recorded_combine {other : Query} {op : BinaryOperator} (recorded : Recorded issued q)
    (beside : Recorded issued other)
    (run : (combine other op).exec q j = ((.ok (), q'), j')) : Recorded issued q' := by
  obtain ⟨_, _, _, got, rest⟩ := Action.exec_bind_ok.mp run
  cases got
  dsimp only at rest
  split at rest
  · cases rest
  · split at rest
    · cases rest
    · obtain ⟨_, _, _, changed, rest⟩ := Action.exec_bind_ok.mp rest
      cases changed
      obtain ⟨_, _, _, got, rest⟩ := Action.exec_bind_ok.mp rest
      cases got
      obtain ⟨params, _, _, separate, changed⟩ := Action.exec_bind_ok.mp rest
      cases changed
      obtain ⟨_, walked, rfl⟩ := Action.exec_separately_ok separate
      rw [Registry.walk_query] at walked
      have known : ∀ p ∈ ({ q with condition := combined op q.condition other.condition } :
          Query).leaves.filterMap Leaf.param?, issued p.token = p := by
        intro p member
        have ofLeft (inside : .param p ∈ q.leaves) := issued_of_recorded recorded p (.inl inside)
        rcases mem_leaves.mp (Leaf.mem_params.mp member) with front | ⟨e, made, inside⟩ | behind
        · exact ofLeft (mem_leaves.mpr (.inl front))
        · rcases mem_combined made inside with left | right
          · exact ofLeft (mem_leaves.mpr (.inr (.inl left)))
          · exact issued_of_recorded beside p (.inl (mem_leaves.mpr (.inr (.inl right))))
        · exact ofLeft (mem_leaves.mpr (.inr (.inr behind)))
      have takes := Registry.takes_of_run (Registry.proper_empty issued) known walked
      refine ⟨takes.1, fun p => ?_⟩
      rw [takes.2, Leaf.mem_params]
      simp [mem_leaves]

end Query

/-! ### Builders -/

/-- The changes of a query set that need no other one. -/
inductive Builder where
  | filter (e : Expr)
  | exclude (e : Expr)
  | orderBy (order : Order) (e : Expr)
  | annotate (alias_ : String) (e : Expr)
  | values (columns : List Column)
  | valuesList (columns : List Column)
  | only (columns : List Column)
  | defer (columns : List Column)
  | selectRelated (names : List String)
  | prefetchRelated (names : List String)
  | distinct
  | reverse
  | onDatabase (database : String)
  | empty
  | slice (low : Bound) (high : Option Bound)
  | limit (count : Bound)
  | offset (skip : Bound)

namespace Builder

def apply : Builder → QuerySet → Action Store QuerySet
  | filter e => QuerySet.filter e
  | exclude e => QuerySet.exclude e
  | orderBy order e => QuerySet.orderBy order e
  | annotate alias_ e => QuerySet.annotate alias_ e
  | values columns => QuerySet.values columns
  | valuesList columns => QuerySet.valuesList columns
  | only columns => QuerySet.only columns
  | defer columns => QuerySet.defer columns
  | selectRelated names => QuerySet.selectRelated names
  | prefetchRelated names => QuerySet.prefetchRelated names
  | distinct => QuerySet.distinct
  | reverse => QuerySet.reverse
  | onDatabase database => QuerySet.onDatabase database
  | empty => QuerySet.empty
  | slice low high => QuerySet.slice low high
  | limit count => QuerySet.limit count
  | offset skip => QuerySet.offset skip

/-- What the builder does to the copy of the query. -/
def change : Builder → Action Query Unit
  | filter e => Query.addCondition e .and
  | exclude e => Query.exclude e
  | orderBy order e => Query.addOrdering order e
  | annotate alias_ e => Query.annotate alias_ e
  | values columns | valuesList columns => modify (Query.project columns)
  | only columns => modify (Query.only columns)
  | defer columns => modify (Query.defer columns)
  | selectRelated names | prefetchRelated names =>
    modify fun q => { q with related := q.related ++ names }
  | distinct => modify fun q => { q with distinct := true }
  | reverse => modify Query.reverse
  | onDatabase database => modify fun q => { q with database := some database }
  | empty => Query.addCondition (.truth false) .and
  | slice low high => Query.slice low high
  | limit count => Query.slice .zero (some count)
  | offset skip => Query.slice skip none

theorem apply_eq (b : Builder) (s : QuerySet) :
    ∃ operation, b.apply s = QuerySet.derive operation b.change s := by
  cases b <;> exact ⟨_, rfl⟩

/-- The leaves of what a builder brings in. -/
def leaves : Builder → List Leaf
  | filter e | exclude e | orderBy _ e | annotate _ e => e.leaves
  | slice low high => low.leaves ++ high.toList.flatMap Bound.leaves
  | limit b | offset b => b.leaves
  | _ => []

variable {issued : String → Param} {b : Builder} {q q' : Query} {j j' : Journal}

/-- A change that attaches nothing and takes no occurrence away. -/
private theorem recorded_modify {f : Query → Query} (recorded : q.Recorded issued)
    (params : (f q).params = q.params) (leaves : (f q).leaves = q.leaves)
    (run : (modify f : Action Query PUnit).exec q j = ((.ok ⟨⟩, q'), j')) : q'.Recorded issued := by
  cases run
  exact ⟨params ▸ recorded.proper, fun p => by rw [params, leaves, recorded.members]⟩

/-- Every change keeps the registry exact. -/
theorem recorded_change (recorded : q.Recorded issued)
    (known : ∀ p, .param p ∈ b.leaves → issued p.token = p)
    (run : b.change.exec q j = ((.ok (), q'), j')) : q'.Recorded issued := by
  cases b with
  | filter e => exact Query.recorded_addCondition recorded known run
  | exclude e =>
    refine Query.recorded_addCondition (e := .unary .not e) recorded (fun p inside => ?_) run
    rw [Expr.leaves] at inside
    exact known p inside
  | empty =>
    exact Query.recorded_addCondition (e := .truth false) recorded (by simp [Expr.leaves]) run
  | orderBy order e => exact Query.recorded_addOrdering recorded known run
  | annotate alias_ e => exact Query.recorded_annotate recorded known run
  | reverse =>
    cases run
    exact Query.recorded_reverse recorded
  | values columns | valuesList columns | only columns | defer columns | selectRelated names
  | prefetchRelated names | distinct | onDatabase database =>
    exact recorded_modify recorded rfl rfl run
  | slice low high =>
    refine Query.recorded_slice recorded (fun p bound => known p ?_) run
    rcases List.mem_cons.mp bound with isLow | isHigh
    · exact List.mem_append_left _ (Bound.mem_leaves.mpr isLow.symm)
    · exact List.mem_append_right _ (List.mem_flatMap.mpr ⟨_, isHigh, Bound.mem_leaves.mpr rfl⟩)
  | limit count =>
    refine Query.recorded_slice recorded (fun p bound => known p (Bound.mem_leaves.mpr ?_)) run
    simpa [Bound.zero, eq_comm] using bound
  | offset skip =>
    refine Query.recorded_slice recorded (fun p bound => known p (Bound.mem_leaves.mpr ?_)) run
    simpa [eq_comm] using bound

end Builder

namespace QuerySet

variable {issued : String → Param} {s s' other : QuerySet} {st st' : Store} {j j' : Journal}

/-- A query set that was obtained from all rows of a model by successful changes,
whatever else the store went through in between. -/
inductive Built (issued : String → Param) : QuerySet → Prop where
  | objects {m : Model} {s : QuerySet} {t t' : Store} {j j' : Journal}
    (run : (ofModel m).exec t j = ((.ok s, t'), j')) : Built issued s
  | change {b : Builder} {s s' : QuerySet} {t t' : Store} {j j' : Journal}
    (before : Built issued s) (known : ∀ p, .param p ∈ b.leaves → issued p.token = p)
    (run : (b.apply s).exec t j = ((.ok s', t'), j')) : Built issued s'
  | intersect {s other s' : QuerySet} {t t' : Store} {j j' : Journal}
    (before : Built issued s) (beside : Built issued other)
    (run : (intersect other s).exec t j = ((.ok s', t'), j')) : Built issued s'
  | union {s other s' : QuerySet} {t t' : Store} {j j' : Journal}
    (before : Built issued s) (beside : Built issued other)
    (run : (union other s).exec t j = ((.ok s', t'), j')) : Built issued s'

/-- A changed query set holds what the change made of a copy of its query. -/
theorem derive_ok {operation : String} {change : Action Query Unit}
    (run : (derive operation change s).exec st j = ((.ok s', st'), j')) :
    ∃ m k q k', change.exec { s.query with memo := m } k = ((.ok (), q), k') ∧
      s' = building q := by
  obtain ⟨q, _, _, narrowed, answer⟩ := Action.exec_bind_ok.mp run
  cases answer
  obtain ⟨before, _, _, held, rest⟩ := Action.exec_bind_ok.mp narrowed
  rw [Action.exec_ofExcept] at held
  cases s with
  | prepared q c => cases held
  | building q =>
    cases held
    obtain ⟨m, _, k, _, separate⟩ := Action.exec_bind_ok.mp rest
    obtain ⟨_, changed, _⟩ := Action.exec_separately_ok separate
    exact ⟨m, k, _, _, changed, rfl⟩

/-- A query set that is being built becomes what the change makes of a copy of its query with
the next cell, if it makes something of it. -/
theorem exec_derive (operation : String) (change : Action Query Unit) (q : Query) (t : Store)
    (j : Journal) :
    (derive operation change (building q)).exec t j =
      match change.exec { q with memo := t.nextMemo } j with
      | ((outcome, q'), j') =>
        ((outcome.map fun _ => building q', { t with nextMemo := t.nextMemo + 1 }), j') := by
  have copied : (narrowed operation change (building q)).exec t j =
      (Action.separately { q with memo := t.nextMemo } change).exec
        { t with nextMemo := t.nextMemo + 1 } j := rfl
  rw [derive, Action.exec_bind, copied, Action.exec_separately]
  rcases change.exec { q with memo := t.nextMemo } j with ⟨⟨failure | _, q'⟩, j'⟩ <;> rfl

/-- A copy of a query with another cell records the same. -/
private theorem recorded_memo {q : Query} {m : Nat} (recorded : q.Recorded issued) :
    ({ q with memo := m } : Query).Recorded issued :=
  ⟨recorded.proper, recorded.members⟩

theorem recorded_apply {b : Builder} (recorded : s.query.Recorded issued)
    (known : ∀ p, .param p ∈ b.leaves → issued p.token = p)
    (run : (b.apply s).exec st j = ((.ok s', st'), j')) : s'.query.Recorded issued := by
  obtain ⟨operation, same⟩ := b.apply_eq s
  rw [same] at run
  obtain ⟨m, k, q, k', changed, rfl⟩ := derive_ok run
  exact Builder.recorded_change (recorded_memo recorded) known changed

theorem recorded_combined {operation : String} {op : BinaryOperator}
    (recorded : s.query.Recorded issued) (beside : other.query.Recorded issued)
    (run : (combine operation op other s).exec st j = ((.ok s', st'), j')) :
    s'.query.Recorded issued := by
  obtain ⟨_, _, _, held, rest⟩ := Action.exec_bind_ok.mp run
  rw [Action.exec_ofExcept] at held
  cases other with
  | prepared q c => cases held
  | building q =>
    cases held
    obtain ⟨m, k, q, k', changed, rfl⟩ := derive_ok rest
    exact Query.recorded_combine (recorded_memo recorded) beside changed

/-- What was built registers exactly its parameters. -/
theorem recorded_of_built (built : Built issued s) : s.query.Recorded issued := by
  induction built with
  | @objects m s st st' j j' run =>
    obtain ⟨memo, _, _, _, answer⟩ := Action.exec_bind_ok.mp run
    cases answer
    exact recorded_memo (Query.recorded_ofModel m)
  | change _ known run ih => exact recorded_apply ih known run
  | intersect _ _ run ih beside => exact recorded_combined ih beside run
  | union _ _ run ih beside => exact recorded_combined ih beside run

end QuerySet

end PreparedSql
