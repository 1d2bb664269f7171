import PreparedSql.Proofs.BuiltQueries
import PreparedSql.Proofs.Compilation

/-! The cells beside parameters, type and nullability alike. A walk that settles
types fills empty cells and no others, and only those of parameters that occur in
the query. What it was told before it failed stays. -/
namespace PreparedSql

open PreparedSql.Action

namespace Types

/-- What is settled stays as it is; more may be settled. -/
def Extends (ts ts' : Types) : Prop :=
  ∀ p t, ts.fieldType? p = some t → ts'.fieldType? p = some t

theorem extends_refl (ts : Types) : ts.Extends ts := fun _ _ known => known

theorem extends_trans {ts ts' ts'' : Types} (first : ts.Extends ts') (next : ts'.Extends ts'') :
    ts.Extends ts'' :=
  fun p t known => next p t (first p t known)

/-- A type that is settled is the one that was settled. -/
theorem fieldType?_of_extends {ts ts' : Types} {p : Param} (more : ts.Extends ts')
    (typed : ts.fieldType? p ≠ none) : ts'.fieldType? p = ts.fieldType? p := by
  obtain ⟨t, known⟩ := Option.ne_none_iff_exists'.mp typed
  rw [known, more p t known]

/-- Whether NULL is accepted, when something said so. -/
def nullable? (ts : Types) (p : Param) : Option Bool :=
  (ts.cell p.token).nullable

/-- Whatever a cell holds it goes on holding. -/
structure Retains (ts ts' : Types) : Prop where
  fieldType : ts.Extends ts'
  nullable : ∀ p b, ts.nullable? p = some b → ts'.nullable? p = some b

/-- Cells were filled, those of the tokens and no others. -/
structure Fills (tokens : String → Prop) (ts ts' : Types) : Prop extends Retains ts ts' where
  spared : ∀ token, ¬tokens token → ts'.cell token = ts.cell token

variable {tokens : String → Prop} {ts ts' ts'' : Types}

theorem retains_refl (ts : Types) : ts.Retains ts :=
  ⟨ts.extends_refl, fun _ _ known => known⟩

theorem retains_trans (first : ts.Retains ts') (next : ts'.Retains ts'') : ts.Retains ts'' :=
  ⟨extends_trans first.fieldType next.fieldType,
    fun p b known => next.nullable p b (first.nullable p b known)⟩

theorem fills_refl (ts : Types) : ts.Fills tokens ts :=
  ⟨ts.retains_refl, fun _ _ => rfl⟩

theorem fills_trans (first : ts.Fills tokens ts') (next : ts'.Fills tokens ts'') :
    ts.Fills tokens ts'' :=
  ⟨retains_trans first.toRetains next.toRetains,
    fun token other => (next.spared token other).trans (first.spared token other)⟩

/-- A cell is replaced by one that goes on holding what it held. -/
theorem fills_set {token : String} {typing : Typing} (own : tokens token)
    (fieldType : ∀ t, (ts.cell token).fieldType = some t → typing.fieldType = some t)
    (nullable : ∀ b, (ts.cell token).nullable = some b → typing.nullable = some b) :
    ts.Fills tokens (ts.set token typing) := by
  refine ⟨⟨fun p t known => ?_, fun p b known => ?_⟩, fun other untouched => ?_⟩
  · rw [fieldType?] at known ⊢
    by_cases same : p.token = token
    · rw [same] at known ⊢
      rw [cell_set_self]
      exact fieldType t known
    · rwa [cell_set_of_ne _ _ same]
  · rw [nullable?] at known ⊢
    by_cases same : p.token = token
    · rw [same] at known ⊢
      rw [cell_set_self]
      exact nullable b known
    · rwa [cell_set_of_ne _ _ same]
  · refine cell_set_of_ne _ _ fun same => untouched ?_
    rw [same]
    exact own

theorem fills_inferType {p : Param} (own : tokens p.token) (t : FieldType) :
    ts.Fills tokens (ts.inferType p t) := by
  unfold inferType
  dsimp only
  split
  · exact ts.fills_refl
  · next unsettled =>
    refine fills_set own (fun t known => ?_) fun _ known => known
    rw [known] at unsettled
    exact absurd rfl unsettled

theorem fills_inferNullable {p : Param} (own : tokens p.token) (nullable : Bool) :
    ts.Fills tokens (ts.inferNullable p nullable) := by
  unfold inferNullable
  dsimp only
  split
  · exact ts.fills_refl
  · next unsettled =>
    refine fills_set own (fun _ known => known) fun b known => ?_
    rw [known] at unsettled
    exact absurd rfl unsettled

theorem retains_inferType (ts : Types) (p : Param) (t : FieldType) :
    ts.Retains (ts.inferType p t) := by
  have fills : ts.Fills (p.token = ·) (ts.inferType p t) := fills_inferType rfl t
  exact fills.toRetains

theorem retains_inferNullable (ts : Types) (p : Param) (nullable : Bool) :
    ts.Retains (ts.inferNullable p nullable) := by
  have fills : ts.Fills (p.token = ·) (ts.inferNullable p nullable) :=
    fills_inferNullable rfl nullable
  exact fills.toRetains

end Types

/-! ### Walks as their visits -/

section
variable {m : Type → Type} [Monad m]

/-- What holds of parts of a walk holds of the parts together. -/
structure Visitor.Composes (v : Visitor m) (H : m Unit → Prop) : Prop where
  done : H (pure ())
  next : ∀ {a b}, H a → H b → H (a >>= fun _ => b)
  types : ∀ {f}, (∀ ts, H (f ts)) → H (v.types >>= f)

variable {v : Visitor m} {H : m Unit → Prop}

theorem Bound.walk_composed (composes : v.Composes H) (b : Bound)
    (visits : ∀ p s, .param p ∈ b.leaves → H (v.visit p s)) : H (b.walk v) := by
  cases b with
  | row n => exact composes.done
  | param p => exact visits p _ (Bound.mem_leaves.mpr rfl)

namespace Expr

mutual

/-- A walk is made of the visits to the parameters of the expression. -/
theorem walk_composed (composes : v.Composes H) (s : Site) : (e : Expr) →
    (∀ p s, .param p ∈ e.leaves → H (v.visit p s)) → H (e.walk v s)
  | .column _, _ | .reference _, _ | .literal _, _ | .truth _, _ | .raw _, _ => composes.done
  | .param p, visits => visits p s (List.mem_singleton.mpr rfl)
  | .bound b, visits => b.walk_composed composes visits
  | .binary op l r, visits => by
    have left (s : Site) := walk_composed composes s l
      fun p s inside => visits p s (List.mem_append_left _ inside)
    have right (s : Site) := walk_composed composes s r
      fun p s inside => visits p s (List.mem_append_right _ inside)
    rw [walk]
    split
    · exact composes.next (left _) (right _)
    · exact composes.types fun ts => composes.next (left _) (right _)
  | .unary op e, visits => walk_composed composes _ e visits
  | .list items, visits => walkItems_composed composes _ items visits
  | .cases whens otherwise, visits => by
    rw [walk]
    refine composes.types fun ts => composes.next ?_ ?_
    · exact walkBranches_composed composes _ whens
        fun p s inside => visits p s (List.mem_append_left _ inside)
    · exact walkOtherwise_composed composes _ otherwise
        fun p s inside => visits p s (List.mem_append_right _ inside)
  | .ordered _ e, visits => walk_composed composes s e visits

theorem walkItems_composed (composes : v.Composes H) (s : Site) : (es : List Expr) →
    (∀ p s, .param p ∈ itemLeaves es → H (v.visit p s)) → H (walkItems v s es)
  | [], _ => composes.done
  | e :: rest, visits => by
    refine composes.next ?_ ?_
    · exact walk_composed composes s e
        fun p s inside => visits p s (List.mem_append_left _ inside)
    · exact walkItems_composed composes s rest
        fun p s inside => visits p s (List.mem_append_right _ inside)

theorem walkBranches_composed (composes : v.Composes H) (s : Site) :
    (whens : List (Expr × Expr)) → (∀ p s, .param p ∈ branchLeaves whens → H (v.visit p s)) →
      H (walkBranches v s whens)
  | [], _ => composes.done
  | (condition, e) :: rest, visits => by
    have behind (p : Param) (s : Site) (inside : .param p ∈ leaves e ++ branchLeaves rest) :=
      visits p s (List.mem_append_right _ inside)
    refine composes.next ?_ (composes.next ?_ ?_)
    · exact walk_composed composes {} condition
        fun p s inside => visits p s (List.mem_append_left _ inside)
    · exact walk_composed composes s e
        fun p s inside => behind p s (List.mem_append_left _ inside)
    · exact walkBranches_composed composes s rest
        fun p s inside => behind p s (List.mem_append_right _ inside)

theorem walkOtherwise_composed (composes : v.Composes H) (s : Site) : (otherwise : Option Expr) →
    (∀ p s, .param p ∈ otherwiseLeaves otherwise → H (v.visit p s)) →
      H (walkOtherwise v s otherwise)
  | none, _ => composes.done
  | some e, visits => walk_composed composes s e visits

end

end Expr

/-- The walk over a query is made of the visits to its parameters. -/
theorem Query.walk_composed (composes : v.Composes H) (q : Query)
    (visits : ∀ p s, .param p ∈ q.leaves → H (v.visit p s)) : H (q.walk v) := by
  have entries {α : Type} (es : List (α × Expr))
      (inside : ∀ entry ∈ es, ∀ p, .param p ∈ entry.2.leaves → .param p ∈ q.leaves) :
      H (es.forM fun entry => entry.2.walk v {}) := by
    induction es with
    | nil => exact composes.done
    | cons entry rest ih =>
      refine composes.next ?_ (ih fun e member => inside e (List.mem_cons_of_mem _ member))
      exact entry.2.walk_composed composes {}
        fun p s held => visits p s (inside entry List.mem_cons_self p held)
  have bound (b : Bound) (held : ∀ p, b = .param p → .param p ∈ q.leaves) : H (b.walk v) :=
    b.walk_composed composes fun p s inside => visits p s (held p (Bound.mem_leaves.mp inside))
  have condition : H (q.condition.forM (Expr.walk v {})) := by
    cases given : q.condition with
    | none => exact composes.done
    | some e =>
      refine e.walk_composed composes {} fun p s inside => visits p s (mem_leaves.mpr ?_)
      exact .inr (.inl ⟨e, given, inside⟩)
  have high : H (q.high.forM (Bound.walk v)) := by
    cases given : q.high with
    | none => exact composes.done
    | some b =>
      refine bound b fun p same => mem_leaves.mpr ?_
      exact .inr (.inr (.inr (.inr (same ▸ given))))
  refine composes.next ?_ (composes.next condition (composes.next ?_ (composes.next ?_ high)))
  · exact entries q.annotations fun entry member p inside =>
      mem_leaves.mpr (.inl ⟨entry, member, inside⟩)
  · exact entries q.orderBy fun entry member p inside =>
      mem_leaves.mpr (.inr (.inr (.inl ⟨entry, member, inside⟩)))
  · exact bound q.low fun p same => mem_leaves.mpr (.inr (.inr (.inr (.inl same))))

end

/-- A parameter of the query has the token. -/
def Query.Names (q : Query) (token : String) : Prop :=
  ∃ p, .param p ∈ q.leaves ∧ p.token = token

namespace Prepared

section
variable {tokens : String → Prop}

private theorem settle_fills {p : Param} (own : tokens p.token) (s : Site) :
    Moves (Types.Fills tokens) (resolve.settle p s) := by
  intro ts j
  unfold resolve.settle
  cases s.target with
  | none => exact ts.fills_refl
  | some t => exact Types.fills_trans (Types.fills_inferType own t) (Types.fills_inferNullable own _)

/-- A visit fills cells of its parameter and no others. -/
theorem resolve_fills {p : Param} (own : tokens p.token) (s : Site) :
    Moves (Types.Fills tokens) (resolve p s) := by
  have refuses (failure : Failure) :
      Moves (Types.Fills tokens) (throw failure : Action Types Unit) :=
    moves_still Types.fills_refl fun _ _ => rfl
  have patterns : Moves (Types.Fills tokens) (modify (·.inferType p .text) : Action Types Unit) :=
    fun _ _ => Types.fills_inferType own .text
  unfold resolve
  split
  · exact refuses _
  · exact refuses _
  · split
    · exact settle_fills own s
    · exact refuses _
  all_goals first | exact patterns | exact settle_fills own s

end

/-- The walk fills cells of the parameters of the query and no others. -/
theorem walk_fills (q : Query) : Moves (Types.Fills q.Names) (q.walk resolver) := by
  have composes : resolver.Composes (Moves (Types.Fills q.Names)) :=
    { done := moves_still Types.fills_refl fun _ _ => rfl
      next := fun first rest => moves_bind Types.fills_trans first fun _ => rest
      types := fun each => moves_bind Types.fills_trans
        (moves_still Types.fills_refl fun _ _ => rfl) each }
  exact q.walk_composed composes fun p s occurs => resolve_fills ⟨p, occurs, rfl⟩ s

/-- So does a compilation, be it that it fails. -/
theorem compile_fills (v : Vendor) (q : Query) : Moves (Types.Fills q.Names) (compile v q) := by
  intro ts j
  rw [types_of_compile]
  exact walk_fills q ts j

end Prepared

end PreparedSql
