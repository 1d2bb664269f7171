import PreparedSql.Proofs.Slicing

/-! Attaching the parameters of a query. The walk that attaches meets every
occurrence of a parameter and nothing else, so what it leaves behind holds what
it held before and the parameters of the query, none of them twice. -/
namespace PreparedSql

namespace Registry

/-- Attaches a parameter, be it new or not. -/
def attach (p : Param) : Action Registry Unit :=
  visitor.visit p {}

/-- The parameters among leaves, in order. -/
theorem occurrences_append (ls ls' : List Leaf) :
    ((ls ++ ls').filterMap Leaf.param?).forM attach = (do
      (ls.filterMap Leaf.param?).forM attach
      (ls'.filterMap Leaf.param?).forM attach) := by
  rw [List.filterMap_append]
  exact List.forM_append

theorem walk_bound (b : Bound) :
    b.walk visitor = (b.leaves.filterMap Leaf.param?).forM attach := by
  cases b with
  | row n => rfl
  | param p => exact (bind_pure (attach p)).symm

mutual

/-- The walk that attaches goes from one occurrence to the next. -/
theorem walk_expr (s : Site) : (e : Expr) →
    e.walk visitor s = (e.leaves.filterMap Leaf.param?).forM attach
  | .column _ | .reference _ | .literal _ | .truth _ | .raw _ => rfl
  | .param p => (bind_pure (attach p)).symm
  | .bound b => by
    rw [Expr.walk, Expr.leaves]
    exact walk_bound b
  | .binary op l r => by
    rw [Expr.walk, Expr.leaves, occurrences_append]
    have types : visitor.types = pure Types.empty := rfl
    split
    · rw [walk_expr _ l, walk_expr _ r]
    · rw [types, pure_bind]
      dsimp only
      rw [walk_expr _ l, walk_expr _ r]
  | .unary op e => by rw [Expr.walk, Expr.leaves, walk_expr _ e]
  | .list items => by rw [Expr.walk, Expr.leaves, walk_items _ items]
  | .cases whens otherwise => by
    rw [Expr.walk, Expr.leaves, occurrences_append]
    have types : visitor.types = pure Types.empty := rfl
    rw [types, pure_bind]
    dsimp only
    rw [walk_branches _ whens, walk_otherwise _ otherwise]
  | .ordered _ e => by rw [Expr.walk, Expr.leaves, walk_expr s e]

theorem walk_items (s : Site) : (es : List Expr) →
    Expr.walkItems visitor s es = ((Expr.itemLeaves es).filterMap Leaf.param?).forM attach
  | [] => rfl
  | e :: rest => by
    rw [Expr.walkItems, Expr.itemLeaves, occurrences_append, walk_expr s e, walk_items s rest]

theorem walk_branches (s : Site) : (whens : List (Expr × Expr)) →
    Expr.walkBranches visitor s whens =
      ((Expr.branchLeaves whens).filterMap Leaf.param?).forM attach
  | [] => rfl
  | (condition, e) :: rest => by
    rw [Expr.walkBranches, Expr.branchLeaves, occurrences_append, occurrences_append,
      walk_expr _ condition, walk_expr s e, walk_branches s rest]

theorem walk_otherwise (s : Site) : (otherwise : Option Expr) →
    Expr.walkOtherwise visitor s otherwise =
      ((Expr.otherwiseLeaves otherwise).filterMap Leaf.param?).forM attach
  | none => rfl
  | some e => walk_expr s e

end

private theorem walk_entries {α : Type} (entries : List (α × Expr)) :
    (entries.forM fun (_, e) => e.walk visitor {}) =
      (((entries.map (·.2)).flatMap Expr.leaves).filterMap Leaf.param?).forM attach := by
  induction entries with
  | nil => rfl
  | cons entry rest ih =>
    rw [List.map_cons, List.flatMap_cons, occurrences_append, ← ih, ← walk_expr {} entry.2]
    rfl

/-- The walk over a query goes from one occurrence to the next. -/
theorem walk_query (q : Query) :
    q.walk visitor = (q.leaves.filterMap Leaf.param?).forM attach := by
  have condition : q.condition.forM (Expr.walk visitor {}) =
      ((q.condition.toList.flatMap Expr.leaves).filterMap Leaf.param?).forM attach := by
    cases q.condition with
    | none => rfl
    | some e =>
      rw [Option.toList_some, List.flatMap_singleton]
      exact walk_expr {} e
  have high : q.high.forM (Bound.walk visitor) =
      ((q.high.toList.flatMap Bound.leaves).filterMap Leaf.param?).forM attach := by
    cases q.high with
    | none => rfl
    | some b =>
      rw [Option.toList_some, List.flatMap_singleton]
      exact walk_bound b
  rw [Query.walk, walk_entries, condition, walk_entries, walk_bound, high]
  simp only [Query.leaves, Query.frontLeaves, Query.expressions, List.flatMap_append,
    occurrences_append, bind_assoc]

/-! ### What is attached -/

/-- No two parameters share a token or a name, and each is the one that was issued
with its token. -/
structure Proper (issued : String → Param) (r : Registry) : Prop where
  tokens : (r.params.map Param.token).Nodup
  names : r.names.Nodup
  issued : ∀ p ∈ r.params, issued p.token = p

theorem proper_empty (issued : String → Param) : Proper issued {} :=
  ⟨List.nodup_nil, List.nodup_nil, fun _ none => by cases none⟩

variable {issued : String → Param} {r r' : Registry} {j j' : Journal}

/-- The registry holds what it held and the parameters, each once. -/
def Takes (issued : String → Param) (r : Registry) (ps : List Param) (r' : Registry) : Prop :=
  Proper issued r' ∧ ∀ p, p ∈ r'.params ↔ p ∈ r.params ∨ p ∈ ps

theorem takes_append {middle : Registry} {ps ps' : List Param} (first : Takes issued r ps middle)
    (second : Takes issued middle ps' r') : Takes issued r (ps ++ ps') r' := by
  refine ⟨second.1, fun p => ?_⟩
  rw [second.2, first.2, List.mem_append, or_assoc]

/-- A parameter with a key of its own keeps the keys distinct. -/
theorem nodup_concat {key : Param → String} {ps : List Param} {p : Param}
    (distinct : (ps.map key).Nodup) (fresh : ∀ q ∈ ps, key q ≠ key p) :
    ((ps ++ [p]).map key).Nodup := by
  rw [List.map_append, List.nodup_append]
  refine ⟨distinct, by simp, fun name old other new same => ?_⟩
  obtain ⟨q, member, rfl⟩ := List.mem_map.mp old
  exact fresh q member (same.trans (List.mem_singleton.mp new))

/-- Whatever comes of attaching a parameter, no two have one name. -/
theorem distinct_attach (distinct : r.names.Nodup) (p : Param) (j : Journal) :
    ((attach p).exec r j).1.2.names.Nodup := by
  obtain ⟨answer, called⟩ : ∃ answer, Called r p answer ((attach p).exec r j).1.2 := by
    obtain ⟨answer, called, _⟩ := called_visit (s := {}) rfl
    exact ⟨answer, called⟩
  generalize ((attach p).exec r j).1.2 = r' at called ⊢
  cases called with
  | attached _ newName => exact nodup_concat distinct newName
  | known _ => exact distinct
  | refused _ _ => exact distinct

theorem takes_of_attach {p : Param} (proper : Proper issued r) (known : issued p.token = p)
    (run : (attach p).exec r j = ((.ok (), r'), j')) : Takes issued r [p] r' := by
  obtain ⟨_, called, passed⟩ := called_visit run
  cases called with
  | refused _ _ => cases passed
  | known met =>
    refine ⟨proper, fun x => ⟨.inl, fun held => held.elim id fun new => ?_⟩⟩
    obtain ⟨q, member, same⟩ := met
    rw [List.mem_singleton.mp new, ← known, ← same, proper.issued q member]
    exact member
  | attached newToken newName =>
    refine ⟨⟨nodup_concat proper.tokens newToken, nodup_concat proper.names newName, ?_⟩,
      fun x => by simp⟩
    intro q member
    rcases List.mem_append.mp member with old | new
    · exact proper.issued q old
    · rw [List.mem_singleton.mp new]
      exact known

theorem takes_of_run {ps : List Param} (proper : Proper issued r)
    (known : ∀ p ∈ ps, issued p.token = p)
    (run : (ps.forM attach).exec r j = ((.ok (), r'), j')) : Takes issued r ps r' := by
  induction ps generalizing r j with
  | nil =>
    cases run
    exact ⟨proper, fun p => by simp⟩
  | cons p ps ih =>
    obtain ⟨_, middle, _, first, rest⟩ := Action.exec_bind_ok.mp run
    have takes := takes_of_attach proper (known p List.mem_cons_self) first
    exact takes_append takes
      (ih takes.1 (fun q member => known q (List.mem_cons_of_mem _ member)) rest)

end Registry

end PreparedSql
