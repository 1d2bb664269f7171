import PreparedSql.Library.Author
import PreparedSql.Proofs.ProgramRuns
import PreparedSql.Proofs.SlotLayout
import PreparedSql.Session.Canned

/-! Prepared query sets are frozen. Every change, every combination with another query set
and every operation that is evaluated at once looks at the phase of the query set before it
does anything else; so it is refused with the name of the operation, nothing is sent, and
store and session stay as they are. What may be done with a prepared query set leads to
prepared query sets of the same query, for its own database to itself and for any other one
to an artifact for that database. -/
namespace PreparedSql

open PreparedSql.Action

/-- The action is refused on a prepared query set, as the operation, and does nothing. -/
def Refused {σ α : Type} (a : Action σ α) (operation : String) : Prop :=
  ∀ s j, a.exec s j = ((.error (.operationOnPreparedStatement operation), s), j)

/-! ### Names of operations -/

namespace Builder

/-- The name that callers know the change by. -/
def name : Builder → String
  | filter _ => "filter"
  | exclude _ => "exclude"
  | orderBy _ _ => "order_by"
  | annotate _ _ => "annotate"
  | values _ => "values"
  | valuesList _ => "values_list"
  | only _ => "only"
  | defer _ => "defer"
  | selectRelated _ => "select_related"
  | prefetchRelated _ => "prefetch_related"
  | distinct => "distinct"
  | reverse => "reverse"
  | onDatabase _ => "using"
  | empty => "none"
  | slice _ _ => "slice"
  | limit _ => "limit"
  | offset _ => "offset"

theorem apply_named (b : Builder) (s : QuerySet) : b.apply s = QuerySet.derive b.name b.change s := by
  cases b <;> rfl

end Builder

namespace Immediate

variable {α : Type}

/-- The name that callers know the operation by. -/
def name : Immediate α → String
  | count => "count"
  | hasRows => "exists"
  | get _ => "get"
  | first _ => "first"
  | last _ => "last"
  | atIndex _ _ => "get_index"
  | all _ => "all"
  | allAs _ => "all_as"
  | iter _ => "iter"
  | raw _ _ => "raw"
  | create _ => "create"
  | update _ => "update"
  | delete => "delete"

/-- The name in a refusal: that of the operation, but all rows in a shape of the caller's
are refused as all rows. -/
def refusedAs : Immediate α → String
  | allAs _ => "all"
  | op => op.name

end Immediate

/-! ### Refusals -/

section
variable {q : Query} {c : Compiled}

theorem QuerySet.derive_refused (operation : String) (change : Action Query Unit) :
    Refused (derive operation change (.prepared q c)) operation :=
  fun _ _ => rfl

/-- No change of a prepared query set. -/
theorem Builder.refused (b : Builder) : Refused (b.apply (.prepared q c)) b.name := by
  rw [b.apply_named]
  exact QuerySet.derive_refused b.name b.change

/-- No combination with a prepared query set, on whichever side it stands. -/
theorem QuerySet.combine_refused (operation : String) (op : BinaryOperator) (other : QuerySet) :
    Refused (combine operation op other (.prepared q c)) operation ∧
      Refused (combine operation op (.prepared q c) other) operation := by
  constructor
  · intro t j
    cases other with
    | building q' => rfl
    | prepared q' c' => rfl
  · intro t j
    rfl

/-- Nothing that is evaluated at once. -/
theorem Immediate.refused {κ α : Type} [Connection κ] (op : Immediate α) :
    Refused (op.run (.prepared q c) : Action (Session κ) α) op.refusedAs := by
  intro s j
  cases op <;> rfl

end

/-! ### What comes of a prepared query set -/

/-- The ways to a query set that a query set has a part in. -/
inductive Uses (s : QuerySet) : Action Store QuerySet → Prop where
  | change (b : Builder) : Uses s (b.apply s)
  | intersect (other : QuerySet) : Uses s (QuerySet.intersect other s)
  | intersected (other : QuerySet) : Uses s (QuerySet.intersect s other)
  | union (other : QuerySet) : Uses s (QuerySet.union other s)
  | united (other : QuerySet) : Uses s (QuerySet.union s other)
  | prepare (v : Vendor) : Uses s (s.prepareFor v)

/-- What comes of a query set by any number of such ways, from whatever stores. -/
inductive Offspring (s : QuerySet) : QuerySet → Prop where
  | self : Offspring s s
  | next {s' s'' : QuerySet} {a : Action Store QuerySet} {t t' : Store} {j j' : Journal}
    (before : Offspring s s') (uses : Uses s' a) (run : a.exec t j = ((.ok s'', t'), j')) :
    Offspring s s''

section
variable {q : Query} {c : Compiled}

theorem not_refused_of_ok {a : Action Store QuerySet} {operation : String} {s : QuerySet}
    {t t' : Store} {j j' : Journal} (run : a.exec t j = ((.ok s, t'), j')) :
    ¬Refused a operation := by
  intro refused
  rw [refused t j] at run
  cases run

/-- Whatever succeeds with a prepared query set prepares its query. -/
theorem prepared_of_uses {a : Action Store QuerySet} {s : QuerySet} {t t' : Store} {j j' : Journal}
    (uses : Uses (.prepared q c) a) (run : a.exec t j = ((.ok s, t'), j')) :
    ∃ c', s = .prepared q c' := by
  cases uses with
  | change b => exact absurd b.refused (not_refused_of_ok run)
  | intersect other =>
    exact absurd (QuerySet.combine_refused "and" .and other).1 (not_refused_of_ok run)
  | intersected other =>
    exact absurd (QuerySet.combine_refused "and" .and other).2 (not_refused_of_ok run)
  | union other =>
    exact absurd (QuerySet.combine_refused "or" .or other).1 (not_refused_of_ok run)
  | united other =>
    exact absurd (QuerySet.combine_refused "or" .or other).2 (not_refused_of_ok run)
  | prepare v =>
    rw [QuerySet.exec_prepareFor] at run
    split at run
    · cases run
      exact ⟨c, rfl⟩
    · rcases ran : (Store.compile v q).exec t j with ⟨⟨failure | c', t''⟩, j''⟩
      · simp only [QuerySet.query, ran] at run
        cases run
      · simp only [QuerySet.query, ran] at run
        cases run
        exact ⟨c', rfl⟩

/-- No sequence of operations thaws a prepared query set. -/
theorem prepared_of_offspring {s : QuerySet} (offspring : Offspring (.prepared q c) s) :
    ∃ c', s = .prepared q c' := by
  induction offspring with
  | self => exact ⟨c, rfl⟩
  | next _ uses run ih =>
    obtain ⟨c', rfl⟩ := ih
    exact prepared_of_uses uses run

end

namespace Program

open Prepared

variable {κ : Type} [Connection κ]

/-- A query set of a program is frozen. -/
structure Frozen (p : Program κ) (s : QuerySet) : Prop where
  /-- It is not changed, nor combined, nor evaluated at once, and to try does nothing. -/
  changes : ∀ b : Builder, Refused (b.apply s) b.name
  intersections : ∀ other, Refused (QuerySet.intersect other s) "and" ∧
    Refused (QuerySet.intersect s other) "and"
  unions : ∀ other, Refused (QuerySet.union other s) "or" ∧ Refused (QuerySet.union s other) "or"
  immediate : ∀ {α : Type} (op : Immediate α),
    Refused (op.run s : Action (Session κ) α) op.refusedAs
  /-- Nothing comes of it but prepared query sets of its query. -/
  offspring : ∀ s', Offspring s s' → s'.isPrepared = true ∧ s'.query = s.query
  /-- For its own database it is prepared already. -/
  again : ∀ v c, s.compiled? = some c → c.artifact.vendor = v →
    ∀ t j, (s.prepareFor v).exec t j = ((.ok s, t), j)
  /-- For every database it can be prepared, and what is prepared then is its query, as it
  compiles for that database. -/
  prepares : ∀ v j, ∃ c t j', (s.prepareFor v).exec p.session.store j =
    ((.ok (.prepared s.query c), t), j') ∧ c.artifact.vendor = v ∧
      Settled v s.query t.types c.artifact

variable {p : Program κ} {q : Query} {c : Compiled}

omit [Connection κ] in
private theorem prepares_of_lawful (lawful : p.world.Lawful) (live : .prepared q c ∈ p.sets)
    (v : Vendor) (j : Journal) : ∃ c' t j', (QuerySet.prepareFor v (.prepared q c)).exec
      p.session.store j = ((.ok (.prepared q c'), t), j') ∧ c'.artifact.vendor = v ∧
        Settled v q t.types c'.artifact := by
  have settled := lawful.prepared q c live
  rw [QuerySet.exec_prepareFor]
  cases found : (QuerySet.prepared q c).compiled?.filter (·.artifact.vendor == v) with
  | some c' =>
    obtain ⟨held, vendor⟩ := Store.found_for found
    cases held
    rw [vendor] at settled
    exact ⟨c, _, _, rfl, vendor, settled⟩
  | none =>
    have compiles : p.session.store.Compiles v q j ((Store.compile v q).exec p.session.store j) :=
      Store.compiles v q (lawful.filled _ live) j
    obtain ⟨a, answer⟩ := compile_other v (compile_of_settled settled j)
    have outcome := compiles.outcome.trans answer
    simp only [QuerySet.query]
    generalize (Store.compile v q).exec p.session.store j = run at compiles outcome ⊢
    obtain ⟨⟨failure | c', t⟩, j'⟩ := run
    · cases outcome
    · obtain ⟨vendor, later⟩ := compiles.settled c' rfl
      exact ⟨c', t, j', rfl, vendor, later⟩

/-- Whatever a program has prepared is frozen. -/
theorem prepared_frozen (reachable : Reachable p) (live : .prepared q c ∈ p.sets) :
    Frozen p (.prepared q c) where
  changes b := b.refused
  intersections other := QuerySet.combine_refused "and" .and other
  unions other := QuerySet.combine_refused "or" .or other
  immediate op := op.refused
  offspring s' came := by
    obtain ⟨c', rfl⟩ := prepared_of_offspring came
    exact ⟨rfl, rfl⟩
  again v c' held vendor t j := by
    cases held
    have found : (QuerySet.prepared q c).compiled?.filter (·.artifact.vendor == v) = some c := by
      rw [QuerySet.compiled?, Option.filter_eq_some_iff]
      exact ⟨rfl, by simpa using vendor⟩
    rw [QuerySet.exec_prepareFor, found]
  prepares := prepares_of_lawful (lawful_of_reachable reachable) live

section
open Library

/-- All authors. -/
def everyAuthor : Query :=
  Query.ofModel Author.model

private def listing : Program Canned :=
  let none : Program Canned := ⟨{ connection := { handle := ⟨1⟩ } }, []⟩
  none.after ((QuerySet.given everyAuthor).exec none.session.store [])

private theorem everyAuthor_prepared : ∃ p : Program Canned, ∃ c, Reachable p ∧
    .prepared everyAuthor c ∈ p.sets := by
  have start : Reachable listing := ⟨_, ⟨.empty, rfl⟩, .step .none (.make (.given everyAuthor) [])⟩
  have live : .building everyAuthor ∈ listing.sets := List.mem_cons_self
  have registered : ∀ r, .param r ∈ everyAuthor.leaves →
      ∃ r', everyAuthor.params.byToken? r.token = some r' := by
    intro r occurs
    cases occurs
  have walked : (everyAuthor.walk resolver).exec .empty [] = ((.ok (), .empty), []) := rfl
  obtain ⟨a, j, compiled⟩ := compile_total (v := .postgres) registered rfl walked
    (fun r member => by cases member)
  obtain ⟨p, next, held, _⟩ := prepared_of_compiled live rfl compiled
  obtain ⟨session, fresh, steps⟩ := start
  exact ⟨p, _, ⟨session, fresh, .step steps next⟩, held⟩

/-- All authors are prepared, and frozen. -/
theorem everyAuthor_frozen : ∃ p : Program Canned, ∃ c, Reachable p ∧
    .prepared everyAuthor c ∈ p.sets ∧ Frozen p (.prepared everyAuthor c) := by
  obtain ⟨p, c, reachable, live⟩ := everyAuthor_prepared
  exact ⟨p, c, reachable, live, prepared_frozen reachable live⟩

/-- To ask all prepared authors for labeled rows is not refused by the name of what was
asked. -/
theorem everyAuthor_misnamed : ∃ p : Program Canned, ∃ c, Reachable p ∧
    .prepared everyAuthor c ∈ p.sets ∧
      ¬Refused ((Immediate.allAs LabeledRow.whole).run (.prepared everyAuthor c) :
        Action (Session Canned) _) (Immediate.allAs LabeledRow.whole).name := by
  obtain ⟨p, c, reachable, live⟩ := everyAuthor_prepared
  refine ⟨p, c, reachable, live, fun refused => ?_⟩
  have all := (Immediate.allAs LabeledRow.whole).refused (κ := Canned) (q := everyAuthor) (c := c)
    p.session []
  rw [refused p.session []] at all
  simp [Immediate.name, Immediate.refusedAs] at all

end

end Program

end PreparedSql
