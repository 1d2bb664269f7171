import PreparedSql.Proofs.BuiltQueries

/-! What all changes of a query have in common. A change is refused, or attaches what it brings in
to the registry and sets something beside it; two queries are combined by setting the condition and
collecting the parameters anew. So a relation between queries that holds along each of these steps
holds along every change, whatever comes of it. -/
namespace PreparedSql

open PreparedSql.Action

namespace Registry

/-- A registry as it comes about: one parameter after the other is attached to an empty one, with
whatever outcome. -/
inductive Collected : Registry → Prop where
  | empty : Collected {}
  | register {r : Registry} (before : Collected r) (p : Param) (j : Journal) :
    Collected ((register p).exec r j).1.2

private theorem exec_attach (p : Param) (r : Registry) (j : Journal) :
    ((attach p).exec r j).1.2 = ((register p).exec r j).1.2 := by
  have visited : attach p = (fun _ => ()) <$> register p := rfl
  rw [visited, exec_map]

theorem collected_attach {r : Registry} (before : Collected r) (p : Param) (j : Journal) :
    Collected ((attach p).exec r j).1.2 := by
  rw [exec_attach]
  exact before.register p j

theorem collected_attaching {r : Registry} (before : Collected r) (ps : List Param) (j : Journal) :
    Collected ((ps.forM attach).exec r j).1.2 := by
  have moves : Moves (fun r r' => Collected r → Collected r') (ps.forM attach) := by
    induction ps with
    | nil => exact moves_still (fun _ => id) fun _ _ => rfl
    | cons p ps ih =>
      exact moves_bind (fun first next => next ∘ first)
        (fun r j before => collected_attach before p j) fun _ => ih
  exact moves r j before

/-- No two parameters have one name. -/
theorem distinct_of_collected {r : Registry} (collected : Collected r) : r.names.Nodup := by
  induction collected with
  | empty => exact List.nodup_nil
  | register _ p j ih =>
    rw [← exec_attach]
    exact distinct_attach ih p j

end Registry

namespace Query

/-- The relation holds along every step that changes are made of. -/
structure Respected (R : Query → Query → Prop) : Prop where
  trans : ∀ {x y z : Query}, R x y → R y z → R x z
  /-- Something is set beside the registry and the cell. -/
  beside : ∀ {q q' : Query}, q'.params = q.params → q'.memo = q.memo → R q q'
  /-- A parameter is attached, or refused. -/
  attach : ∀ (q : Query) (p : Param) (j : Journal),
    R q { q with params := ((Registry.attach p).exec q.params j).1.2 }
  /-- The parameters are collected anew. -/
  anew : ∀ (q : Query) {r : Registry}, r.Collected → R q { q with params := r }

section
variable {R : Query → Query → Prop} (respected : Respected R)
include respected

private theorem respected_still {α : Type} {a : Action Query α}
    (still : ∀ q j, (a.exec q j).1.2 = q) : Moves R a :=
  moves_still (fun _ => respected.beside rfl rfl) still

private theorem respected_bind {α β : Type} {a : Action Query α} {f : α → Action Query β}
    (first : Moves R a) (rest : ∀ x, Moves R (f x)) : Moves R (a >>= f) :=
  moves_bind respected.trans first rest

private theorem respected_modify {f : Query → Query} (params : ∀ q, (f q).params = q.params)
    (memo : ∀ q, (f q).memo = q.memo) : Moves R (modify f : Action Query PUnit) :=
  fun q _ => respected.beside (params q) (memo q)

private theorem respected_ofExcept {α : Type} (outcome : Except Failure α) :
    Moves R (Action.ofExcept outcome) :=
  respected_still respected fun _ _ => by rw [exec_ofExcept]

/-- Attaching parameters is attaching one after the other. -/
private theorem respected_attaching (ps : List Param) :
    Moves R (registering (ps.forM Registry.attach)) := by
  induction ps with
  | nil => exact fun q _ => respected.beside rfl rfl
  | cons p ps ih =>
    intro q j
    have first := respected.attach q p j
    show R q { q with params := ((p :: ps).forM Registry.attach).exec q.params j |>.1.2 }
    rw [List.forM_eq_forM, List.forM_cons, exec_bind]
    generalize (Registry.attach p).exec q.params j = run at first
    obtain ⟨⟨failure | _, r⟩, j'⟩ := run
    · exact first
    · exact respected.trans first (ih { q with params := r } j')

private theorem respected_registerExpr (e : Expr) :
    Moves R (registering (Registry.registerExpr e)) := by
  rw [Registry.registerExpr, Registry.walk_expr]
  exact respected_attaching respected _

private theorem respected_bound (b : Bound) : Moves R (registering (b.walk Registry.visitor)) := by
  rw [Registry.walk_bound]
  exact respected_attaching respected _

/-- A change that is refused or attaches an expression and goes on. -/
private theorem respected_guarded {failure : Failure} {e : Expr} {f : Query → Query}
    (refused : Query → Bool) (params : ∀ q, (f q).params = q.params)
    (memo : ∀ q, (f q).memo = q.memo) :
    Moves R (do
      if refused (← get) then throw failure
      registering (Registry.registerExpr e)
      modify f) := by
  refine respected_bind respected (respected_still respected fun _ _ => rfl) fun q => ?_
  split
  · exact respected_still respected fun _ _ => rfl
  · exact respected_bind respected (respected_registerExpr respected e) fun _ =>
      respected_modify respected params memo

theorem respected_addCondition (e : Expr) (op : BinaryOperator) : Moves R (addCondition e op) :=
  respected_guarded respected isSliced (fun _ => rfl) fun _ => rfl

theorem respected_slice (low : Bound) (high : Option Bound) : Moves R (slice low high) := by
  have got : Moves R (get : Action Query Query) := respected_still respected fun _ _ => rfl
  refine respected_bind respected got fun q => ?_
  dsimp only
  split
  · refine respected_bind respected (respected_ofExcept respected _) fun _ => ?_
    refine respected_bind respected (respected_ofExcept respected _) fun _ => ?_
    refine respected_bind respected (respected_ofExcept respected _) fun _ => ?_
    refine respected_bind respected (respected_ofExcept respected _) fun _ => ?_
    exact respected_modify respected (fun _ => rfl) fun _ => rfl
  · refine respected_bind respected (respected_bound respected low) fun _ => ?_
    refine respected_bind respected ?_ fun _ =>
      respected_modify respected (fun _ => rfl) fun _ => rfl
    cases high with
    | none => exact respected_still respected fun _ _ => rfl
    | some b => exact respected_bound respected b

theorem respected_combine (other : Query) (op : BinaryOperator) : Moves R (combine other op) := by
  have got : Moves R (get : Action Query Query) := respected_still respected fun _ _ => rfl
  have collecting (merged : Query) : Moves R (do
      let params ← Action.separately {} (merged.walk Registry.visitor)
      modify fun q : Query => { q with params := params }) := by
    intro q j
    have collected := Registry.collected_attaching .empty (merged.leaves.filterMap Leaf.param?) j
    rw [exec_bind, exec_separately, Registry.walk_query]
    generalize ((merged.leaves.filterMap Leaf.param?).forM Registry.attach).exec {} j = run
      at collected
    obtain ⟨⟨failure | _, r⟩, j'⟩ := run
    · exact respected.beside rfl rfl
    · exact respected.anew q collected
  refine respected_bind respected got fun q => ?_
  dsimp only
  split
  · exact respected_still respected fun _ _ => rfl
  · split
    · exact respected_still respected fun _ _ => rfl
    · refine respected_bind respected ?_ fun _ => respected_bind respected got collecting
      exact respected_modify respected (fun _ => rfl) fun _ => rfl

end

end Query

/-- So is every change that a builder makes. -/
theorem Builder.respected_change {R : Query → Query → Prop} (respected : Query.Respected R)
    (b : Builder) : Moves R b.change := by
  cases b with
  | filter e | exclude e | empty => exact Query.respected_addCondition respected _ _
  | orderBy order e =>
    exact Query.respected_guarded respected Query.isSliced (fun _ => rfl) fun _ => rfl
  | annotate alias_ e =>
    exact Query.respected_guarded respected (fun q => q.annotations.any (·.1 == alias_))
      (fun _ => rfl) fun _ => rfl
  | slice low high => exact Query.respected_slice respected low high
  | limit count => exact Query.respected_slice respected _ _
  | offset skip => exact Query.respected_slice respected _ _
  | values | valuesList | only | defer | selectRelated | prefetchRelated | distinct | reverse
    | onDatabase => exact Query.respected_modify respected (fun _ => rfl) fun _ => rfl

end PreparedSql
