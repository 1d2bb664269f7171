import PreparedSql.Proofs.FaithfulIndex
import PreparedSql.Proofs.QueryText

/-! Slices of a query that compiles. Attaching the bounds keeps the parameters
of the query, a bound is typed as a row number where nothing else types it, and
the query still compiles. -/
namespace PreparedSql

/-! ### Attaching bounds -/

namespace Registry

/-- The registry holds what it held before, the parameters of the bounds, and
nothing else. -/
structure Attached (r : Registry) (bounds : List Bound) (r' : Registry) : Prop where
  grows : r.params ⊆ r'.params
  kept : ∀ token p, r.byToken? token = some p → r'.byToken? token = some p
  members : ∀ p ∈ r'.params, p ∈ r.params ∨ .param p ∈ bounds
  holds : ∀ p, .param p ∈ bounds → ∃ x, r'.byToken? p.token = some x

theorem attached_nil (r : Registry) : Attached r [] r :=
  ⟨List.Subset.refl _, fun _ _ known => known, fun _ member => .inl member,
    fun _ none => by cases none⟩

theorem attached_cons {r middle r' : Registry} {b : Bound} {bounds : List Bound}
    (first : Attached r [b] middle) (rest : Attached middle bounds r') :
    Attached r (b :: bounds) r' := by
  refine ⟨fun _ member => rest.grows (first.grows member),
    fun token p known => rest.kept token p (first.kept token p known), ?_, ?_⟩
  · intro p member
    rcases rest.members p member with before | later
    · rcases first.members p before with old | new
      · exact .inl old
      · rw [List.mem_singleton.mp new]
        exact .inr List.mem_cons_self
    · exact .inr (List.mem_cons_of_mem b later)
  · intro p member
    rcases List.mem_cons.mp member with head | tail
    · obtain ⟨x, known⟩ := first.holds p (List.mem_singleton.mpr head)
      exact ⟨x, rest.kept p.token x known⟩
    · exact rest.holds p tail

theorem exec_visit (p : Param) (s : Site) (r : Registry) (j : Journal) :
    (visitor.visit p s).exec r j =
      if (r.byToken? p.token).isSome then ((.ok (), r), j)
      else if (r.get? p.name).isSome then ((.error (.duplicateParameterName p.name), r), j)
      else ((.ok (), ⟨r.params ++ [p]⟩),
        j ++ [⟨.trace, "Registered bind parameter `" ++ p.name ++ "`"⟩]) := by
  have visited : visitor.visit p s = (fun _ => ()) <$> register p := rfl
  rw [visited, Action.exec_map, exec_register]
  by_cases known : (r.byToken? p.token).isSome
  · simp [known, Except.map]
  · by_cases named : (r.get? p.name).isSome <;> simp [known, named, Except.map]

/-- Visiting a parameter is a call that registers it. -/
theorem called_visit {p : Param} {s : Site} {r r' : Registry} {j j' : Journal}
    {outcome : Except Failure Unit} (run : (visitor.visit p s).exec r j = ((outcome, r'), j')) :
    ∃ answer, Called r p answer r' ∧ outcome = answer.map fun _ => () := by
  have visited : visitor.visit p s = (fun _ => ()) <$> register p := rfl
  rw [visited, Action.exec_map] at run
  cases run
  exact ⟨_, called_register r p j, rfl⟩

theorem attached_of_walk {b : Bound} {r r' : Registry} {j j' : Journal}
    (run : (b.walk visitor).exec r j = ((.ok (), r'), j')) : Attached r [b] r' := by
  cases b with
  | row n =>
    cases run
    exact ⟨List.Subset.refl _, fun _ _ known => known, fun _ member => .inl member, by simp⟩
  | param p =>
    obtain ⟨_, called, passed⟩ := called_visit run
    cases called with
    | refused _ _ => cases passed
    | known held =>
      refine ⟨List.Subset.refl _, fun _ _ found => found, fun _ member => .inl member,
        fun q same => ?_⟩
      cases List.mem_singleton.mp same
      exact Option.isSome_iff_exists.mp (byToken?_isSome.mpr held)
    | attached _ _ =>
      refine ⟨List.subset_append_left _ _, fun token q found => ?_, fun q member => ?_,
        fun q same => ?_⟩
      · rw [byToken?] at found ⊢
        rw [List.find?_append, found, Option.some_or]
      · rcases List.mem_append.mp member with old | new
        · exact .inl old
        · rw [List.mem_singleton.mp new]
          exact .inr List.mem_cons_self
      · cases List.mem_singleton.mp same
        exact Option.isSome_iff_exists.mp (byToken?_isSome.mpr ⟨p, by simp, rfl⟩)

end Registry

namespace Query

/-- Registering leaves everything else of a query alone, whatever comes of it. -/
theorem exec_registering {α : Type} {a : Action Registry α} {outcome : Except Failure α}
    {q q' : Query} {j j' : Journal} (run : (registering a).exec q j = ((outcome, q'), j')) :
    ∃ r, a.exec q.params j = ((outcome, r), j') ∧ q' = { q with params := r } := by
  rw [registering, Action.exec_zoom] at run
  cases inner : a.exec q.params j with
  | mk result _ =>
    obtain ⟨outcome, r⟩ := result
    rw [inner] at run
    cases run
    exact ⟨r, rfl, rfl⟩

/-- A slice of a whole query is the query with the bounds, whose parameters are
attached. -/
theorem slice_ok {q q' : Query} {low : Bound} {high : Option Bound} {j j' : Journal}
    (whole : q.isSliced = false) (sliced : (slice low high).exec q j = ((.ok (), q'), j')) :
    ∃ r, Registry.Attached q.params (low :: high.toList) r ∧
      q' = { q with params := r, low := low, high := high } := by
  obtain ⟨_, _, _, got, rest⟩ := Action.exec_bind_ok.mp sliced
  cases got
  simp only [whole] at rest
  obtain ⟨_, _, _, lowRun, rest⟩ := Action.exec_bind_ok.mp rest
  obtain ⟨_, _, _, highRun, answer⟩ := Action.exec_bind_ok.mp rest
  cases answer
  obtain ⟨middle, lowWalk, rfl⟩ := exec_registering lowRun
  have first := Registry.attached_of_walk lowWalk
  cases high with
  | none =>
    cases highRun
    exact ⟨middle, Registry.attached_cons first (Registry.attached_nil middle), rfl⟩
  | some b =>
    obtain ⟨r, highWalk, rfl⟩ := exec_registering highRun
    exact ⟨r, Registry.attached_cons first (Registry.attached_of_walk highWalk), rfl⟩

theorem bounds_of_whole {q : Query} (whole : q.isSliced = false) :
    q.low = .row 0 ∧ q.high = none := by
  rw [isSliced, Bool.or_eq_false_iff] at whole
  obtain ⟨noHigh, fromZero⟩ := whole
  refine ⟨?_, by simpa using noHigh⟩
  cases low : q.low with
  | row n => simpa [low, Bound.isZero] using fromZero
  | param p => simp [low, Bound.isZero] at fromZero

/-- The walk of a query, without the bounds of its slice. -/
def walkFront {m : Type → Type} [Monad m] (visitor : Visitor m) (q : Query) : m Unit := do
  q.annotations.forM fun (_, e) => e.walk visitor {}
  q.condition.forM (Expr.walk visitor {})
  q.orderBy.forM fun (_, e) => e.walk visitor {}

theorem walk_eq {m : Type → Type} [Monad m] [LawfulMonad m] (visitor : Visitor m) (q : Query) :
    q.walk visitor = (do
      walkFront visitor q
      q.low.walk visitor
      q.high.forM (Bound.walk visitor)) := by
  simp only [walk, walkFront, bind_assoc]

end Query

/-! ### Typing bounds -/

namespace Types

/-- What has a type keeps having one. -/
def Keeps (types types' : Types) : Prop :=
  ∀ p, types.fieldType? p ≠ none → types'.fieldType? p ≠ none

theorem fieldType?_set (types : Types) (token : String) (typing : Typing) (p : Param) :
    (types.set token typing).fieldType? p =
      if p.token = token then typing.fieldType else types.fieldType? p := by
  simp only [fieldType?, set]
  split <;> rfl

theorem fieldType?_inferNullable (types : Types) (p q : Param) (nullable : Bool) :
    (types.inferNullable p nullable).fieldType? q = types.fieldType? q := by
  simp only [inferNullable]
  split
  · rfl
  · rw [fieldType?_set]
    split
    · next same => rw [fieldType?, same]
    · rfl

theorem fieldType?_inferType (types : Types) (p q : Param) (t : FieldType) :
    (types.inferType p t).fieldType? q =
      if q.token = p.token then (types.fieldType? p).or (some t) else types.fieldType? q := by
  unfold inferType
  cases known : (types.cell p.token).fieldType with
  | some t' =>
    simp only [Option.isSome_some, ↓reduceIte, fieldType?, known, Option.some_or]
    split
    · next same => rw [same, known]
    · rfl
  | none =>
    have untyped : types.fieldType? p = none := known
    simp only [known, Option.isSome_none, Bool.false_eq_true, ↓reduceIte, fieldType?_set, untyped,
      Option.none_or]

end Types

namespace Prepared

/-- The bound of a slice is typed, and nothing loses its type. -/
theorem walk_bound (b : Bound) (types : Types) (j : Journal) :
    ∃ types', (b.walk resolver).exec types j = ((.ok (), types'), j) ∧ types.Keeps types' ∧
      ∀ p, b = .param p → types'.fieldType? p ≠ none := by
  cases b with
  | row n => exact ⟨types, rfl, fun _ typed => typed, fun p none => by cases none⟩
  | param p =>
    refine ⟨(types.inferType p .bigInteger).inferNullable p false, rfl, fun q typed => ?_, ?_⟩
    · rw [Types.fieldType?_inferNullable, Types.fieldType?_inferType]
      split
      · simp
      · exact typed
    · rintro _ ⟨⟩
      rw [Types.fieldType?_inferNullable, Types.fieldType?_inferType, if_pos rfl]
      simp

theorem walk_bounds (low : Bound) (high : Option Bound) (types : Types) (j : Journal) :
    ∃ types', (do low.walk resolver; high.forM (Bound.walk resolver)).exec types j =
        ((.ok (), types'), j) ∧
      types.Keeps types' ∧ ∀ p, .param p ∈ low :: high.toList → types'.fieldType? p ≠ none := by
  obtain ⟨middle, lowRun, lowKeeps, lowTyped⟩ := walk_bound low types j
  cases high with
  | none =>
    refine ⟨middle, Action.exec_bind_ok.mpr ⟨_, _, _, lowRun, rfl⟩, lowKeeps, fun p member => ?_⟩
    exact lowTyped p (List.mem_singleton.mp member).symm
  | some b =>
    obtain ⟨types', highRun, highKeeps, highTyped⟩ := walk_bound b middle j
    refine ⟨types', Action.exec_bind_ok.mpr ⟨_, _, _, lowRun, highRun⟩,
      fun p typed => highKeeps p (lowKeeps p typed), fun p member => ?_⟩
    rcases List.mem_cons.mp member with first | second
    · exact highKeeps p (lowTyped p first.symm)
    · exact highTyped p (List.mem_singleton.mp second).symm

/-- A slice of a query that compiles does compile. -/
theorem slice_compiles {v : Vendor} {q q' : Query} {a : Artifact} {types types' : Types}
    {j j' k k' : Journal} {low : Bound} {high : Option Bound}
    (compiled : (compile v q).exec types j = ((.ok a, types'), j')) (whole : q.isSliced = false)
    (sliced : (Query.slice low high).exec q k = ((.ok (), q'), k')) :
    ∃ a' types'' j'', (compile v q').exec types j = ((.ok a', types''), j'') := by
  obtain ⟨r, attached, rfl⟩ := Query.slice_ok whole sliced
  obtain ⟨fromZero, noHigh⟩ := Query.bounds_of_whole whole
  obtain ⟨⟨middle, walked⟩, typed, written⟩ := compile_ok_iff.mp ⟨_, compiled⟩
  rw [Query.walk_eq, fromZero, noHigh] at walked
  obtain ⟨_, _, _, walkedFront, rest⟩ := Action.exec_bind_ok.mp walked
  cases rest
  obtain ⟨settled, walkedBounds, keeps, typedBounds⟩ := walk_bounds low high types' middle
  have walked' : (Query.walk resolver { q with params := r, low := low, high := high }).exec
      types j = ((.ok (), settled), middle) := by
    rw [Query.walk_eq]
    exact Action.exec_bind_ok.mpr ⟨_, _, _, walkedFront, walkedBounds⟩
  have registered' : ∀ p, .param p ∈ Query.leaves { q with params := r, low := low, high := high } →
      ∃ x, r.byToken? p.token = some x := by
    intro p occurs
    rcases List.mem_append.mp occurs with front | bounds
    · obtain ⟨x, known⟩ := registered_front written front
      exact ⟨x, attached.kept p.token x known⟩
    · refine attached.holds p ?_
      rcases List.mem_append.mp bounds with inLow | inHigh
      · exact List.mem_cons.mpr (.inl (Bound.mem_leaves.mp inLow).symm)
      · obtain ⟨b, member, inside⟩ := List.mem_flatMap.mp inHigh
        rw [← Bound.mem_leaves.mp inside]
        exact List.mem_cons_of_mem _ member
  have typed' : ∀ p ∈ r.params, settled.fieldType? p ≠ none := by
    intro p member
    rcases attached.members p member with old | new
    · exact keeps p (typed p old)
    · exact typedBounds p new
  have charted : q.inCalendar = true := inCalendar_of_written written
  obtain ⟨a', j'', compiled'⟩ := compile_total registered' charted walked' typed'
  exact ⟨a', settled, j'', compiled'⟩

end Prepared

end PreparedSql
