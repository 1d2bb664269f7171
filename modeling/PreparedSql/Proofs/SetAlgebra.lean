import Mathlib.Data.Set.Basic
import PreparedSql.Library.Author
import PreparedSql.Proofs.BuiltQueries
import PreparedSql.Proofs.ConditionTruth

/-! Query sets as sets of rows. A condition is true of a row, false of it, or neither, and a
query without a condition admits every row. Filters, exclusions, intersections and unions then
say of rows what they say in their names, however they are nested: the condition of the query
they make in the end is true of just the rows that the sets contain. -/
namespace PreparedSql

/-! ### What a condition says -/

namespace Expr

/-- What a condition says of a row under three-valued logic, when `atom` tells what those parts
of it say that are no connectives. -/
def judged (atom : Expr → Truth) : Expr → Truth
  | truth b => if b then .yes else .no
  | unary .not e => (judged atom e).not
  | binary .and l r => (judged atom l).and (judged atom r)
  | binary .or l r => (judged atom l).or (judged atom r)
  | e => atom e

end Expr

namespace Query

variable {Row : Type} {m : Model} {atoms : Row → Expr → Truth} {rows rows' : Set Row}
  {q q' other : Query} {e : Expr} {j j' : Journal}

/-- The condition is true of the row, or there is none. -/
def Admits (atom : Expr → Truth) (q : Query) : Prop :=
  ∀ e ∈ q.condition, e.judged atom = .yes

/-- A whole query of the model that admits just these rows. -/
structure Denotes (m : Model) (atoms : Row → Expr → Truth) (rows : Set Row) (q : Query) :
    Prop where
  model : q.model = m
  whole : q.isSliced = false
  admits : ∀ row, q.Admits (atoms row) ↔ row ∈ rows

theorem denotes_ofModel (m : Model) (atoms : Row → Expr → Truth) :
    (ofModel m).Denotes m atoms Set.univ where
  model := rfl
  whole := rfl
  admits _ := ⟨fun _ => trivial, fun _ _ none => by cases none⟩

/-- A further condition leaves the rows of which it is true. -/
theorem denotes_addCondition (before : q.Denotes m atoms rows)
    (run : (addCondition e .and).exec q j = ((.ok (), q'), j')) :
    q'.Denotes m atoms {row ∈ rows | e.judged (atoms row) = .yes} := by
  obtain ⟨_, _, _, got, rest⟩ := Action.exec_bind_ok.mp run
  cases got
  split at rest
  · cases rest
  · obtain ⟨_, _, _, registered, changed⟩ := Action.exec_bind_ok.mp rest
    obtain ⟨r, _, rfl⟩ := exec_registering registered
    cases changed
    refine ⟨before.model, before.whole, fun row => ?_⟩
    rw [Set.mem_ofPred_eq, ← before.admits row]
    cases current : q.condition with
    | none => simp [Admits, current]
    | some c => simp [Admits, current, Expr.judged]

/-- A condition that is excluded leaves the rows of which it is false. -/
theorem denotes_exclude (before : q.Denotes m atoms rows)
    (run : (exclude e).exec q j = ((.ok (), q'), j')) :
    q'.Denotes m atoms {row ∈ rows | e.judged (atoms row) = .no} := by
  have left := denotes_addCondition before run
  simpa only [Expr.judged, Truth.not_eq_yes] using left

theorem denotes_empty (before : q.Denotes m atoms rows)
    (run : (addCondition (.truth false) .and).exec q j = ((.ok (), q'), j')) :
    q'.Denotes m atoms ∅ := by
  have left := denotes_addCondition before run
  simpa [Expr.judged] using left

/-- A query that takes in another one keeps its model, stays whole, and has both conditions. -/
theorem combine_ok {op : BinaryOperator} (run : (combine other op).exec q j = ((.ok (), q'), j')) :
    ∃ params, q' = { q with
      condition := combined op q.condition other.condition, params := params } := by
  obtain ⟨_, _, _, got, rest⟩ := Action.exec_bind_ok.mp run
  cases got
  dsimp only at rest
  split at rest
  · cases rest
  · split at rest
    · cases rest
    · obtain ⟨_, _, _, changed, rest⟩ := Action.exec_bind_ok.mp rest
      cases changed
      obtain ⟨_, _, _, got, rest⟩ := Action.exec_bind_ok.mp rest
      cases got
      obtain ⟨params, _, _, separate, changed⟩ := Action.exec_bind_ok.mp rest
      cases changed
      obtain ⟨_, _, rfl⟩ := Action.exec_separately_ok separate
      exact ⟨params, rfl⟩

theorem denotes_intersect (before : q.Denotes m atoms rows) (beside : other.Denotes m atoms rows')
    (run : (combine other .and).exec q j = ((.ok (), q'), j')) :
    q'.Denotes m atoms (rows ∩ rows') := by
  obtain ⟨params, rfl⟩ := combine_ok run
  refine ⟨before.model, before.whole, fun row => ?_⟩
  rw [Set.mem_inter_iff, ← before.admits row, ← beside.admits row]
  unfold Admits
  cases q.condition <;> cases other.condition <;> simp [combined, Expr.judged]

/-- A query without a condition admits every row, and so does what it is a part of. -/
theorem denotes_union (before : q.Denotes m atoms rows) (beside : other.Denotes m atoms rows')
    (run : (combine other .or).exec q j = ((.ok (), q'), j')) :
    q'.Denotes m atoms (rows ∪ rows') := by
  obtain ⟨params, rfl⟩ := combine_ok run
  refine ⟨before.model, before.whole, fun row => ?_⟩
  rw [Set.mem_union, ← before.admits row, ← beside.admits row]
  unfold Admits
  cases q.condition <;> cases other.condition <;> simp [combined, Expr.judged]

end Query

/-! ### Names that do not clash -/

/-- What goes by one name is one parameter. -/
def Unambiguous (ps : List Param) : Prop :=
  ∀ p ∈ ps, ∀ p' ∈ ps, p.name = p'.name → p.token = p'.token

namespace Registry

variable {ps new : List Param} {r : Registry}

/-- A parameter that clashes with none is attached. -/
theorem attach_succeeds {p : Param} (clear : Unambiguous ps) (held : r.params ⊆ ps)
    (member : p ∈ ps) (j : Journal) :
    ∃ r' j', (attach p).exec r j = ((.ok (), r'), j') ∧ r'.params ⊆ ps := by
  rw [attach, exec_visit]
  split
  · exact ⟨r, j, rfl, held⟩
  · next unmet =>
    -- Another parameter of the name would have the token as well.
    have unnamed : (r.get? p.name).isSome = false := by
      rw [Bool.eq_false_iff]
      intro named
      obtain ⟨p', member', sameName⟩ := get?_isSome.mp named
      exact unmet (byToken?_isSome.mpr ⟨p', member', clear p' (held member') p member sameName⟩)
    refine ⟨⟨r.params ++ [p]⟩, _, by rw [if_neg (by simp [unnamed])], ?_⟩
    exact List.append_subset.mpr ⟨held, by simpa using member⟩

theorem attaching_succeeds (clear : Unambiguous ps) (held : r.params ⊆ ps) (known : new ⊆ ps)
    (j : Journal) :
    ∃ r' j', (new.forM attach).exec r j = ((.ok (), r'), j') ∧ r'.params ⊆ ps := by
  induction new generalizing r j with
  | nil => exact ⟨r, j, rfl, held⟩
  | cons p new ih =>
    obtain ⟨member, known⟩ := List.cons_subset.mp known
    obtain ⟨r', j', first, held'⟩ := attach_succeeds clear held member j
    obtain ⟨r'', j'', rest, held''⟩ := ih held' known j'
    have both : ((p :: new).forM attach) = (do attach p; new.forM attach) := rfl
    refine ⟨r'', j'', ?_, held''⟩
    rw [both, Action.exec_bind, first]
    exact rest

end Registry

namespace Query

variable {m : Model} {ps : List Param} {q other : Query} {e : Expr}

/-- A whole query of the model with parameters from a list only. -/
structure Draws (m : Model) (ps : List Param) (q : Query) : Prop where
  model : q.model = m
  whole : q.isSliced = false
  held : q.params.params ⊆ ps
  occurring : ∀ p, .param p ∈ q.leaves → p ∈ ps

theorem draws_ofModel (m : Model) (ps : List Param) : (ofModel m).Draws m ps where
  model := rfl
  whole := rfl
  held := List.nil_subset ps
  occurring p inside := by simp [mem_leaves, ofModel, Bound.zero] at inside

/-- What occurs in a query with another condition occurs in the query or the condition. -/
theorem mem_leaves_of_condition {c : Option Expr} {r : Registry} {p : Param}
    (inside : .param p ∈ ({ q with condition := c, params := r } : Query).leaves) :
    .param p ∈ q.leaves ∨ ∃ e, c = some e ∧ .param p ∈ e.leaves := by
  rcases mem_leaves.mp inside with annotated | condition | behind
  · exact .inl (mem_leaves.mpr (.inl annotated))
  · exact .inr condition
  · exact .inl (mem_leaves.mpr (.inr (.inr behind)))

theorem draws_of_condition {c : Option Expr} {r : Registry} (before : q.Draws m ps)
    (held : r.params ⊆ ps) (known : ∀ e p, c = some e → .param p ∈ e.leaves → p ∈ ps) :
    ({ q with condition := c, params := r } : Query).Draws m ps := by
  refine ⟨before.model, before.whole, held, fun p inside => ?_⟩
  rcases mem_leaves_of_condition inside with old | ⟨e, made, new⟩
  · exact before.occurring p old
  · exact known e p made new

theorem mem_of_condition {p : Param} (before : q.Draws m ps) (present : q.condition = some e)
    (inside : .param p ∈ e.leaves) : p ∈ ps :=
  before.occurring p (mem_leaves.mpr (.inr (.inl ⟨e, present, inside⟩)))

theorem addCondition_succeeds (clear : Unambiguous ps) (before : q.Draws m ps)
    (known : e.occurrences ⊆ ps) (j : Journal) :
    ∃ q' j', (addCondition e .and).exec q j = ((.ok (), q'), j') ∧ q'.Draws m ps := by
  obtain ⟨r, j', attached, held⟩ := Registry.attaching_succeeds clear before.held known j
  have walked : (Registry.registerExpr e).exec q.params j = ((.ok (), r), j') := by
    rw [Registry.registerExpr, Registry.walk_expr]
    exact attached
  let condition := q.condition.elim e (Expr.binary .and · e)
  have run : (addCondition e .and).exec q j =
      ((.ok (), { q with condition := some condition, params := r }), j') := by
    rw [addCondition, Action.exec_bind, Action.exec_get]
    dsimp only
    rw [if_neg (by simp [before.whole]), Action.exec_bind, registering, Action.exec_zoom, walked]
    dsimp only
    rw [Action.exec_modify]
    simp only [condition]
    cases q.condition <;> rfl
  refine ⟨_, j', run, draws_of_condition before held fun c p made inside => ?_⟩
  have new (inside : .param p ∈ e.leaves) : p ∈ ps := known (Leaf.mem_params.mpr inside)
  obtain rfl : condition = c := Option.some.inj made
  cases current : q.condition with
  | none => exact new (by simpa only [condition, current, Option.elim] using inside)
  | some old =>
    simp only [condition, current, Option.elim, Expr.leaves, List.mem_append] at inside
    exact inside.elim (mem_of_condition before current) new

/-- Whole queries of one model are combined, when no names clash in them. -/
theorem combine_succeeds {op : BinaryOperator} (clear : Unambiguous ps) (before : q.Draws m ps)
    (beside : other.Draws m ps) (j : Journal) :
    ∃ q' j', (combine other op).exec q j = ((.ok (), q'), j') ∧ q'.Draws m ps := by
  let condition := combined op q.condition other.condition
  have known (e : Expr) (p : Param) (made : condition = some e) (inside : .param p ∈ e.leaves) :
      p ∈ ps := by
    rcases mem_combined made inside with ⟨x, left, inside⟩ | ⟨x, right, inside⟩
    · exact mem_of_condition before left inside
    · exact mem_of_condition beside right inside
  have both := draws_of_condition before before.held known
  have occurring : ({ q with condition := condition } : Query).leaves.filterMap Leaf.param? ⊆ ps :=
    fun p member => both.occurring p (Leaf.mem_params.mp member)
  obtain ⟨r, j', attached, held⟩ :=
    Registry.attaching_succeeds clear (List.nil_subset ps) occurring j
  rw [← Registry.walk_query] at attached
  have sameTable : q.table = other.table := by
    rw [table, table, before.model, beside.model]
  refine ⟨_, j', ?_, draws_of_condition before held known⟩
  rw [combine, Action.exec_bind, Action.exec_get]
  dsimp only
  rw [if_neg (not_not.mpr sameTable), if_neg (by simp [before.whole, beside.whole]),
    Action.exec_bind, Action.exec_modify]
  dsimp only
  rw [Action.exec_bind, Action.exec_get]
  dsimp only
  rw [Action.exec_bind, Action.exec_separately, attached]
  rfl

end Query

/-! ### Calls -/

namespace QuerySet

variable {Row : Type} {m : Model} {atoms : Row → Expr → Truth} {rows : Set Row} {t t' : Store}
  {j j' : Journal} {s : QuerySet} {ps : List Param}

/-- What one call makes of the query set before it. -/
theorem denotes_of_derive (operation : String) {change : Action Query Unit} {made : Set Row}
    {q : Query} (before : q.Denotes m atoms rows)
    (step : ∀ {q q' : Query} {j j' : Journal}, q.Denotes m atoms rows →
      change.exec q j = ((.ok (), q'), j') → q'.Denotes m atoms made)
    (run : (derive operation change (.building q)).exec t j = ((.ok s, t'), j')) :
    ∃ q', s = .building q' ∧ q'.Denotes m atoms made := by
  obtain ⟨memo, _, q', _, changed, rfl⟩ := derive_ok run
  have copied : ({ q with memo := memo } : Query).Denotes m atoms rows :=
    ⟨before.model, before.whole, before.admits⟩
  exact ⟨q', rfl, step copied changed⟩

/-- A call succeeds when its change does. -/
theorem derive_succeeds {change : Action Query Unit} {q : Query} (before : q.Draws m ps)
    (step : ∀ {q : Query}, q.Draws m ps → ∀ j, ∃ q' j',
      change.exec q j = ((.ok (), q'), j') ∧ q'.Draws m ps)
    (operation : String) (t : Store) (j : Journal) :
    ∃ q' t' j', (derive operation change (.building q)).exec t j =
      ((.ok (.building q'), t'), j') ∧ q'.Draws m ps := by
  have copied : ({ q with memo := t.nextMemo } : Query).Draws m ps :=
    ⟨before.model, before.whole, before.held, before.occurring⟩
  obtain ⟨q', j', changed, drawn⟩ := step copied j
  refine ⟨q', { t with nextMemo := t.nextMemo + 1 }, j', ?_, drawn⟩
  rw [exec_derive, changed]
  rfl

end QuerySet

/-! ### Programs of sets -/

/-- A query set as callers put it together from all rows of a model. -/
inductive Combination where
  | objects
  | filter (c : Combination) (e : Expr)
  | exclude (c : Combination) (e : Expr)
  | empty (c : Combination)
  | intersect (l r : Combination)
  | union (l r : Combination)

namespace Combination

variable {Row : Type} {m : Model} {atoms : Row → Expr → Truth} {t t' : Store} {j j' : Journal}
  {s : QuerySet} {ps : List Param}

/-- Makes the query set, step by step. -/
def build (m : Model) : Combination → Action Store QuerySet
  | objects => QuerySet.ofModel m
  | filter c e => do QuerySet.filter e (← c.build m)
  | exclude c e => do QuerySet.exclude e (← c.build m)
  | empty c => do QuerySet.empty (← c.build m)
  | intersect l r => do
    let s ← l.build m
    let other ← r.build m
    QuerySet.intersect other s
  | union l r => do
    let s ← l.build m
    let other ← r.build m
    QuerySet.union other s

/-- The rows in the set. -/
def rows (atoms : Row → Expr → Truth) : Combination → Set Row
  | objects => Set.univ
  | filter c e => {row ∈ c.rows atoms | e.judged (atoms row) = .yes}
  | exclude c e => {row ∈ c.rows atoms | e.judged (atoms row) = .no}
  | empty _ => ∅
  | intersect l r => l.rows atoms ∩ r.rows atoms
  | union l r => l.rows atoms ∪ r.rows atoms

/-- The parameters of all its conditions. -/
def params : Combination → List Param
  | objects => []
  | filter c e | exclude c e => c.params ++ e.occurrences
  | empty c => c.params
  | intersect l r | union l r => l.params ++ r.params

/-- A combination that is made denotes its rows. -/
theorem denotes_of_build (atoms : Row → Expr → Truth) {c : Combination}
    (run : (c.build m).exec t j = ((.ok s, t'), j')) :
    ∃ q, s = .building q ∧ q.Denotes m atoms (c.rows atoms) := by
  induction c generalizing t t' j j' s with
  | objects =>
    obtain ⟨memo, _, _, _, answer⟩ := Action.exec_bind_ok.mp run
    cases answer
    have all := Query.denotes_ofModel m atoms
    exact ⟨_, rfl, all.model, all.whole, all.admits⟩
  | filter c e ih =>
    obtain ⟨_, _, _, before, step⟩ := Action.exec_bind_ok.mp run
    obtain ⟨q, rfl, denotes⟩ := ih before
    exact QuerySet.denotes_of_derive "filter" denotes Query.denotes_addCondition step
  | exclude c e ih =>
    obtain ⟨_, _, _, before, step⟩ := Action.exec_bind_ok.mp run
    obtain ⟨q, rfl, denotes⟩ := ih before
    exact QuerySet.denotes_of_derive "exclude" denotes Query.denotes_exclude step
  | empty c ih =>
    obtain ⟨_, _, _, before, step⟩ := Action.exec_bind_ok.mp run
    obtain ⟨q, rfl, denotes⟩ := ih before
    exact QuerySet.denotes_of_derive "none" denotes Query.denotes_empty step
  | intersect l r left right =>
    obtain ⟨_, _, _, before, rest⟩ := Action.exec_bind_ok.mp run
    obtain ⟨_, _, _, beside, step⟩ := Action.exec_bind_ok.mp rest
    obtain ⟨q, rfl, denotes⟩ := left before
    obtain ⟨other, rfl, denotes'⟩ := right beside
    exact QuerySet.denotes_of_derive "and" denotes
      (fun whole => Query.denotes_intersect whole denotes') step
  | union l r left right =>
    obtain ⟨_, _, _, before, rest⟩ := Action.exec_bind_ok.mp run
    obtain ⟨_, _, _, beside, step⟩ := Action.exec_bind_ok.mp rest
    obtain ⟨q, rfl, denotes⟩ := left before
    obtain ⟨other, rfl, denotes'⟩ := right beside
    exact QuerySet.denotes_of_derive "or" denotes
      (fun whole => Query.denotes_union whole denotes') step

/-- A combination in which no names clash is made. -/
theorem build_succeeds (clear : Unambiguous ps) {c : Combination} (known : c.params ⊆ ps)
    (t : Store) (j : Journal) :
    ∃ q t' j', (c.build m).exec t j = ((.ok (.building q), t'), j') ∧ q.Draws m ps := by
  induction c generalizing t j with
  | objects =>
    have all := Query.draws_ofModel m ps
    exact ⟨_, _, j, rfl, all.model, all.whole, all.held, all.occurring⟩
  | filter c e ih =>
    obtain ⟨known, new⟩ := List.append_subset.mp known
    obtain ⟨q, t, j, before, drawn⟩ := ih known t j
    rw [build, Action.exec_bind, before]
    exact QuerySet.derive_succeeds drawn
      (fun drawn => Query.addCondition_succeeds clear drawn new) "filter" t j
  | exclude c e ih =>
    obtain ⟨known, new⟩ := List.append_subset.mp known
    obtain ⟨q, t, j, before, drawn⟩ := ih known t j
    rw [build, Action.exec_bind, before]
    exact QuerySet.derive_succeeds drawn
      (fun drawn => Query.addCondition_succeeds (e := .unary .not e) clear drawn new) "exclude" t j
  | empty c ih =>
    obtain ⟨q, t, j, before, drawn⟩ := ih known t j
    rw [build, Action.exec_bind, before]
    exact QuerySet.derive_succeeds drawn (fun drawn =>
      Query.addCondition_succeeds (e := .truth false) clear drawn (List.nil_subset ps)) "none" t j
  | intersect l r left right =>
    obtain ⟨known, known'⟩ := List.append_subset.mp known
    obtain ⟨q, t, j, before, drawn⟩ := left known t j
    obtain ⟨other, t, j, beside, drawn'⟩ := right known' t j
    rw [build, Action.exec_bind, before]
    dsimp only
    rw [Action.exec_bind, beside]
    exact QuerySet.derive_succeeds drawn
      (fun drawn => Query.combine_succeeds clear drawn drawn') "and" t j
  | union l r left right =>
    obtain ⟨known, known'⟩ := List.append_subset.mp known
    obtain ⟨q, t, j, before, drawn⟩ := left known t j
    obtain ⟨other, t, j, beside, drawn'⟩ := right known' t j
    rw [build, Action.exec_bind, before]
    dsimp only
    rw [Action.exec_bind, beside]
    exact QuerySet.derive_succeeds drawn
      (fun drawn => Query.combine_succeeds clear drawn drawn') "or" t j

/-- Query sets have their meaning as sets. When no two of its parameters share a name, a
combination is made without failure; and whatever is made is a whole query whose condition,
where it has one, is true of just the rows in the set, whatever the parts of the conditions
say of the rows. -/
theorem build_selects (c : Combination) (m : Model) (t : Store) (j : Journal) :
    (Unambiguous c.params → ∃ s t' j', (c.build m).exec t j = ((.ok s, t'), j')) ∧
    ∀ s t' j', (c.build m).exec t j = ((.ok s, t'), j') → ∃ q, s = .building q ∧
      q.model = m ∧ q.isSliced = false ∧ ∀ {Row : Type} (atoms : Row → Expr → Truth) (row : Row),
        q.Admits (atoms row) ↔ row ∈ c.rows atoms := by
  refine ⟨fun clear => ?_, fun s t' j' run => ?_⟩
  · obtain ⟨q, t', j', run, _⟩ := build_succeeds clear (List.Subset.refl _) t j
    exact ⟨.building q, t', j', run⟩
  · have made {Row : Type} (atoms : Row → Expr → Truth) := denotes_of_build atoms run
    obtain ⟨q, rfl, whole⟩ := made fun (_ : Unit) _ => .unknown
    refine ⟨q, rfl, whole.model, whole.whole, fun atoms row => ?_⟩
    obtain ⟨_, same, denotes⟩ := made atoms
    cases same
    exact denotes.admits row

/-! #### Authors with another address -/

open Library

/-- What an address is compared with. -/
def address : Param := .scalar "1" "email"

/-- The authors whose address is another one, put together with nobody. -/
def elsewhere : Combination :=
  .union (.empty .objects)
    (.exclude .objects (.binary .equal (.column Author.emailColumn) (.param address)))

/-- What a comparison with an address says of an author; nothing, where none is known. -/
def compared (given : String) (a : Author) : Expr → Truth
  | .binary .equal (.column _) (.param _) =>
    match a.email with
    | none => .unknown
    | some email => if email = given then .yes else .no
  | _ => .unknown

theorem elsewhere_selects : ∃ q t' j',
    (elsewhere.build Author.model).exec {} [] = ((.ok (.building q), t'), j') ∧
    ∀ a : Author, q.Admits (compared "olga@example.org" a) ↔
      ∃ email ∈ a.email, email ≠ "olga@example.org" := by
  obtain ⟨succeeds, means⟩ := build_selects elsewhere Author.model {} []
  have clear : Unambiguous elsewhere.params := by
    intro p member p' member' _
    rw [List.mem_singleton.mp member, List.mem_singleton.mp member']
  obtain ⟨s, t', j', run⟩ := succeeds clear
  obtain ⟨q, rfl, _, _, admits⟩ := means s t' j' run
  refine ⟨q, t', j', run, fun a => ?_⟩
  rw [admits (compared "olga@example.org") a]
  cases known : a.email with
  | none => simp [elsewhere, rows, Expr.judged, compared, known]
  | some email => simp [elsewhere, rows, Expr.judged, compared, known]

end Combination
end PreparedSql
