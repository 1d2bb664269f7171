import PreparedSql.Library.Author
import PreparedSql.Proofs.MemoCells

/-! Compiled statements are kept in cells that copies of a query share, and types
of parameters in cells that all queries share which use the parameters. However
query sets are built, copied, combined and prepared, and for whatever databases,
nobody can tell: to compile or to prepare a query set answers what compiling its
query without the cells would answer at that moment, and what has compiled once
goes on answering the same. -/
namespace PreparedSql

open Prepared

/-- What callers of a library hold: the store, and query sets that use it. -/
structure World where
  store : Store
  sets : List QuerySet

namespace World

/-- The world after an action on the store; a query set that came of it is held. -/
def after (w : World) (run : Ran QuerySet) : World :=
  ⟨run.1.2, run.1.1.toOption.toList ++ w.sets⟩

theorem mem_after {w : World} {s : QuerySet} (live : s ∈ w.sets) (run : Ran QuerySet) :
    s ∈ (w.after run).sets :=
  List.mem_append_right _ live

/-- What a caller may do, and what becomes of the world, be it that the action fails. -/
inductive Step (w : World) : World → Prop where
  | objects (m : Model) (j : Journal) : Step w (w.after ((QuerySet.ofModel m).exec w.store j))
  | change (b : Builder) {s : QuerySet} (live : s ∈ w.sets) (j : Journal) :
    Step w (w.after ((b.apply s).exec w.store j))
  | intersect {s other : QuerySet} (live : s ∈ w.sets) (beside : other ∈ w.sets) (j : Journal) :
    Step w (w.after ((QuerySet.intersect other s).exec w.store j))
  | union {s other : QuerySet} (live : s ∈ w.sets) (beside : other ∈ w.sets) (j : Journal) :
    Step w (w.after ((QuerySet.union other s).exec w.store j))
  | clone {s : QuerySet} (live : s ∈ w.sets) : Step w { w with sets := s :: w.sets }
  | prepare (v : Vendor) {s : QuerySet} (live : s ∈ w.sets) (j : Journal) :
    Step w (w.after ((s.prepareFor v).exec w.store j))
  | compile (v : Vendor) {s : QuerySet} (live : s ∈ w.sets) (j : Journal) :
    Step w { w with store := ((Store.compile v s.query).exec w.store j).1.2 }
  /-- Types of parameters that nobody has settled are declared. -/
  | declare {types : Types} (more : w.store.types.Extends types) :
    Step w { w with store := { w.store with types := types } }

/-- Any number of steps. -/
inductive Steps (w : World) : World → Prop where
  | none : Steps w w
  | step {middle w' : World} (before : Steps w middle) (next : Step middle w') : Steps w w'

/-- What comes of a run that begins without query sets, whatever types have been
declared. -/
def Reachable (w : World) : Prop :=
  ∃ types, Steps ⟨{ types := types }, []⟩ w

/-- What any step comes to, so every invariant is a case analysis of it. How types are
settled without a compilation is up to the kind of step. -/
inductive Does (settles : Types → Types → Prop) (w : World) : World → Prop where
  | build {run : Ran QuerySet} (builds : w.store.Builds run) : Does settles w (w.after run)
  | hold {s : QuerySet} (live : s ∈ w.sets) : Does settles w { w with sets := s :: w.sets }
  | prepare (v : Vendor) {s : QuerySet} (live : s ∈ w.sets) (j : Journal) :
    Does settles w (w.after ((s.prepareFor v).exec w.store j))
  | compile (v : Vendor) {s : QuerySet} (live : s ∈ w.sets) (j : Journal) :
    Does settles w { w with store := ((Store.compile v s.query).exec w.store j).1.2 }
  | declare {types : Types} (more : settles w.store.types types) :
    Does settles w { w with store := { w.store with types := types } }
  | handOut (n : Nat) :
    Does settles w { w with store := { w.store with nextMemo := w.store.nextMemo + n } }

theorem does_of_step {w w' : World} (step : Step w w') : Does Types.Extends w w' := by
  cases step with
  | objects m j => exact .build (QuerySet.builds_ofModel m w.store j)
  | change b live j => exact .build (QuerySet.builds_apply b _ w.store j)
  | intersect live beside j => exact .build (QuerySet.builds_combine _ _ _ _ w.store j)
  | union live beside j => exact .build (QuerySet.builds_combine _ _ _ _ w.store j)
  | clone live => exact .hold live
  | prepare v live j => exact .prepare v live j
  | compile v live j => exact .compile v live j
  | declare more => exact .declare more

/-! ### What every run keeps -/

/-- No two different queries share a cell, and what is in a cell, or was prepared, is
settled. -/
structure Lawful (w : World) : Prop where
  /-- Cells that are not handed out are empty. -/
  empty : ∀ m, w.store.nextMemo ≤ m → w.store.memos m = none
  handedOut : ∀ s ∈ w.sets, s.query.memo < w.store.nextMemo
  shared : ∀ s ∈ w.sets, ∀ other ∈ w.sets, s.query.memo = other.query.memo → s.query = other.query
  filled : ∀ s ∈ w.sets, ∀ c, w.store.memos s.query.memo = some c →
    Settled c.artifact.vendor s.query w.store.types c.artifact
  prepared : ∀ q c, .prepared q c ∈ w.sets → Settled c.artifact.vendor q w.store.types c.artifact

theorem lawful_start (types : Types) : Lawful ⟨{ types := types }, []⟩ :=
  ⟨fun _ _ => rfl, by simp, by simp, by simp, by simp⟩

variable {w w' : World}

/-- A query set with a query that is held already may be held as well. -/
theorem lawful_hold (lawful : Lawful w) {s : QuerySet}
    (known : ∃ other ∈ w.sets, other.query = s.query)
    (settled : ∀ q c, s = .prepared q c → Settled c.artifact.vendor q w.store.types c.artifact) :
    Lawful { w with sets := s :: w.sets } := by
  obtain ⟨other, live, same⟩ := known
  -- Every query that is held now was held before.
  have before : ∀ s' ∈ s :: w.sets, ∃ s'' ∈ w.sets, s''.query = s'.query := by
    intro s' member
    rcases List.mem_cons.mp member with rfl | old
    · exact ⟨other, live, same⟩
    · exact ⟨s', old, rfl⟩
  refine ⟨lawful.empty, fun s' member => ?_, fun s₁ first s₂ second cell => ?_,
    fun s' member => ?_, fun q c member => ?_⟩
  · obtain ⟨s'', old, same⟩ := before s' member
    exact same ▸ lawful.handedOut s'' old
  · obtain ⟨t₁, old₁, same₁⟩ := before s₁ first
    obtain ⟨t₂, old₂, same₂⟩ := before s₂ second
    rw [← same₁, ← same₂] at cell ⊢
    exact lawful.shared t₁ old₁ t₂ old₂ cell
  · obtain ⟨s'', old, same⟩ := before s' member
    exact same ▸ lawful.filled s'' old
  · rcases List.mem_cons.mp member with new | old
    · exact settled q c new.symm
    · exact lawful.prepared q c old

/-- More types settle nothing anew. -/
theorem lawful_declare (lawful : Lawful w) {types : Types} (more : w.store.types.Extends types) :
    Lawful { w with store := { w.store with types := types } } :=
  ⟨lawful.empty, lawful.handedOut, lawful.shared,
    fun s live c held => settled_of_extends (lawful.filled s live c held) more,
    fun q c live => settled_of_extends (lawful.prepared q c live) more⟩

/-- A query set that is being built, and that has a cell of its own with nothing in
it, may be held. -/
theorem lawful_hold_built (lawful : Lawful w) {q : Query} (handed : q.memo < w.store.nextMemo)
    (own : ∀ s ∈ w.sets, s.query.memo ≠ q.memo) (nothing : w.store.memos q.memo = none) :
    Lawful { w with sets := .building q :: w.sets } := by
  refine ⟨lawful.empty, fun s member => ?_, fun s₁ first s₂ second cell => ?_,
    fun s member c held => ?_, fun q c member => ?_⟩
  · rcases List.mem_cons.mp member with rfl | old
    · exact handed
    · exact lawful.handedOut s old
  · rcases List.mem_cons.mp first with rfl | old₁ <;> rcases List.mem_cons.mp second with rfl | old₂
    · rfl
    · exact absurd cell.symm (own s₂ old₂)
    · exact absurd cell (own s₁ old₁)
    · exact lawful.shared s₁ old₁ s₂ old₂ cell
  · rcases List.mem_cons.mp member with rfl | old
    · rw [QuerySet.query, nothing] at held
      cases held
    · exact lawful.filled s old c held
  · rcases List.mem_cons.mp member with new | old
    · cases new
    · exact lawful.prepared q c old

/-- Cells may be handed out to nobody. -/
theorem lawful_handOut (lawful : Lawful w) (n : Nat) :
    Lawful { w with store := { w.store with nextMemo := w.store.nextMemo + n } } :=
  ⟨fun m later => lawful.empty m (Nat.le_of_add_right_le later),
    fun s live => Nat.lt_add_right n (lawful.handedOut s live), lawful.shared, lawful.filled,
    lawful.prepared⟩

/-- What is built has an empty cell of its own. -/
theorem lawful_build (lawful : Lawful w) {run : Ran QuerySet} (builds : w.store.Builds run) :
    Lawful (w.after run) := by
  obtain ⟨⟨outcome, store⟩, j⟩ := run
  cases outcome with
  | error failure =>
    rcases builds.store with same | handed
    · cases same
      exact lawful
    · cases handed
      exact lawful_handOut lawful 1
  | ok s =>
    obtain ⟨handed, q, rfl, cell⟩ := builds.fresh s rfl
    cases handed
    refine lawful_hold_built (lawful_handOut lawful 1) ?_ (fun s live same => ?_) ?_
    · rw [cell]
      exact Nat.lt_succ_self _
    · have earlier := lawful.handedOut s live
      rw [same, cell] at earlier
      exact Nat.lt_irrefl _ earlier
    · rw [cell]
      exact lawful.empty _ (Nat.le_refl _)

/-- A compilation leaves settled what it puts into the cell of its query. -/
theorem lawful_compile (lawful : Lawful w) {v : Vendor} {s : QuerySet} (live : s ∈ w.sets)
    {j : Journal} {run : Ran Compiled} (compiles : w.store.Compiles v s.query j run) :
    Lawful { w with store := run.1.2 } := by
  refine ⟨fun m later => ?_, fun s' live' => ?_, lawful.shared, fun s' live' c held => ?_,
    fun q c live' => settled_of_extends (lawful.prepared q c live') compiles.types⟩
  · have later : w.store.nextMemo ≤ m := compiles.nextMemo ▸ later
    rcases compiles.memos m with same | ⟨own, _⟩
    · exact same.trans (lawful.empty m later)
    · have earlier := lawful.handedOut s live
      omega
  · exact compiles.nextMemo ▸ lawful.handedOut s' live'
  · rcases compiles.memos s'.query.memo with same | ⟨cell, c', made, new⟩
    · have held : w.store.memos s'.query.memo = some c := same ▸ held
      exact settled_of_extends (lawful.filled s' live' c held) compiles.types
    · have new : c = c' := Option.some.inj (held.symm.trans new)
      obtain ⟨vendor, settled⟩ := compiles.settled c' made
      rw [lawful.shared s' live' s live cell, new, vendor]
      exact settled

/-- A preparation is a compilation, and holds what came of it. -/
theorem lawful_prepare (lawful : Lawful w) (v : Vendor) {s : QuerySet} (live : s ∈ w.sets)
    (j : Journal) : Lawful (w.after ((s.prepareFor v).exec w.store j)) := by
  rw [QuerySet.exec_prepareFor]
  cases s.compiled?.filter (·.artifact.vendor == v) with
  | some c =>
    refine lawful_hold lawful ⟨s, live, rfl⟩ fun q c same => ?_
    exact lawful.prepared q c (same ▸ live)
  | none =>
    have compiles := Store.compiles v s.query (lawful.filled s live) j
    have kept := lawful_compile lawful live compiles
    generalize (Store.compile v s.query).exec w.store j = run at compiles kept ⊢
    obtain ⟨⟨failure | c, store⟩, j'⟩ := run
    · exact kept
    · refine lawful_hold kept ⟨s, live, rfl⟩ fun q c' same => ?_
      obtain ⟨vendor, settled⟩ := compiles.settled c rfl
      cases same
      exact vendor ▸ settled

variable {settles : Types → Types → Prop}

theorem does_lawful (settled : ∀ {ts ts'}, settles ts ts' → ts.Extends ts') (lawful : Lawful w)
    (does : Does settles w w') : Lawful w' := by
  cases does with
  | build builds => exact lawful_build lawful builds
  | @hold s live =>
    refine lawful_hold lawful ⟨s, live, rfl⟩ fun q c same => ?_
    exact lawful.prepared q c (same ▸ live)
  | prepare v live j => exact lawful_prepare lawful v live j
  | @compile v s live j =>
    exact lawful_compile lawful live (Store.compiles v s.query (lawful.filled s live) j)
  | declare more => exact lawful_declare lawful (settled more)
  | handOut n => exact lawful_handOut lawful n

theorem step_lawful (lawful : Lawful w) (step : Step w w') : Lawful w' :=
  does_lawful id lawful (does_of_step step)

theorem steps_lawful (lawful : Lawful w) (steps : Steps w w') : Lawful w' := by
  induction steps with
  | none => exact lawful
  | step _ next ih => exact step_lawful ih next

theorem lawful_of_reachable (reachable : Reachable w) : Lawful w := by
  obtain ⟨types, steps⟩ := reachable
  exact steps_lawful (lawful_start types) steps

/-! ### Types settle along a run -/

/-- Whatever else is done retains what is known of parameters. -/
theorem does_settles (retained : ∀ {ts ts' : Types}, ts.Retains ts' → settles ts ts')
    (does : Does settles w w') : settles w.store.types w'.store.types := by
  have still : settles w.store.types w.store.types := retained w.store.types.retains_refl
  cases does with
  | build builds =>
    rw [after, (Store.kept_of_builds builds).2]
    exact still
  | hold live => exact still
  | @prepare v s live j => exact retained (QuerySet.prepareFor_retains v s w.store j)
  | @compile v s live j => exact retained (Store.compile_retains v s.query w.store j)
  | declare more => exact more
  | handOut n => exact still

/-- No step changes a type that is settled. -/
theorem steps_extend (steps : Steps w w') : w.store.types.Extends w'.store.types := by
  induction steps with
  | none => exact w.store.types.extends_refl
  | step _ next ih =>
    exact Types.extends_trans ih (does_settles (·.fieldType) (does_of_step next))

/-! ### What is answered -/

/-- What compiling the query of a query set answers. -/
def compiles (w : World) (v : Vendor) (s : QuerySet) (j : Journal) : Except Failure Artifact :=
  ((Store.compile v s.query).exec w.store j).1.1.map (·.artifact)

/-- The artifact of what preparing a query set answers. -/
def prepares (w : World) (v : Vendor) (s : QuerySet) (j : Journal) :
    Except Failure (Option Artifact) :=
  ((s.prepareFor v).exec w.store j).1.1.map fun s' => s'.compiled?.map (·.artifact)

/-- What compiling a query without any cell would answer at this moment. -/
def afresh (w : World) (v : Vendor) (q : Query) (j : Journal) : Except Failure Artifact :=
  ((Prepared.compile v q).exec w.store.types j).1.1

/-- From here on, whatever steps are taken, every query set with the query is compiled
and prepared as the artifact. -/
def Keeps (w : World) (v : Vendor) (q : Query) (a : Artifact) : Prop :=
  ∀ w', Steps w w' → ∀ s ∈ w'.sets, s.query = q → ∀ j,
    w'.compiles v s j = .ok a ∧ w'.prepares v s j = .ok (some a)

/-- Nobody can tell from the answers that there are cells. -/
structure Transparent (w : World) (s : QuerySet) (v : Vendor) : Prop where
  compiles : ∀ j, w.compiles v s j = w.afresh v s.query j
  prepares : ∀ j, w.prepares v s j = (w.afresh v s.query j).map some
  compiled : ∀ j a, w.compiles v s j = .ok a →
    Keeps { w with store := ((Store.compile v s.query).exec w.store j).1.2 } v s.query a
  prepared : ∀ j a, w.prepares v s j = .ok (some a) →
    Keeps (w.after ((s.prepareFor v).exec w.store j)) v s.query a

section
variable {s : QuerySet} (lawful : Lawful w) (live : s ∈ w.sets) (v : Vendor) (j : Journal)
include lawful live

theorem compiles_afresh : w.compiles v s j = w.afresh v s.query j :=
  (Store.compiles v s.query (lawful.filled s live) j).outcome

/-- What was prepared for the database before is settled. -/
private theorem settled_of_found {c : Compiled}
    (found : s.compiled?.filter (·.artifact.vendor == v) = some c) :
    s.compiled? = some c ∧ Settled v s.query w.store.types c.artifact := by
  obtain ⟨held, vendor⟩ := Store.found_for found
  cases s with
  | building q => cases held
  | prepared q c' =>
    cases held
    exact ⟨rfl, vendor ▸ lawful.prepared q c live⟩

theorem prepares_afresh : w.prepares v s j = (w.afresh v s.query j).map some := by
  have compiled := compiles_afresh lawful live v j
  rw [prepares, QuerySet.exec_prepareFor]
  cases found : s.compiled?.filter (·.artifact.vendor == v) with
  | some c =>
    obtain ⟨held, settled⟩ := settled_of_found lawful live v found
    simp only [afresh, compile_of_settled settled j, Except.map, held, Option.map_some]
  | none =>
    rw [← compiled, World.compiles]
    rcases (Store.compile v s.query).exec w.store j with ⟨⟨failure | c, store⟩, j'⟩ <;> rfl

variable {v j} {a : Artifact}

theorem settled_of_compiles (answer : w.compiles v s j = .ok a) :
    Settled v s.query ((Store.compile v s.query).exec w.store j).1.2.types a := by
  have compiles := Store.compiles v s.query (lawful.filled s live) j
  rw [World.compiles] at answer
  generalize (Store.compile v s.query).exec w.store j = run at answer compiles
  obtain ⟨⟨failure | c, store⟩, j'⟩ := run
  · cases answer
  · cases answer
    exact (compiles.settled c rfl).2

theorem settled_of_prepares (answer : w.prepares v s j = .ok (some a)) :
    Settled v s.query ((s.prepareFor v).exec w.store j).1.2.types a := by
  rw [prepares, QuerySet.exec_prepareFor] at answer
  rw [QuerySet.exec_prepareFor]
  cases found : s.compiled?.filter (·.artifact.vendor == v) with
  | some c =>
    obtain ⟨held, settled⟩ := settled_of_found lawful live v found
    rw [found] at answer
    simp only [Except.map, held, Option.map_some, Except.ok.injEq, Option.some.injEq] at answer
    exact answer ▸ settled
  | none =>
    rw [found] at answer
    have compiled := settled_of_compiles (v := v) (j := j) (a := a) lawful live
    rw [World.compiles] at compiled
    generalize (Store.compile v s.query).exec w.store j = run at answer compiled
    obtain ⟨⟨failure | c, store⟩, j'⟩ := run
    · cases answer
    · cases answer
      exact compiled rfl

end

/-- What is settled is answered from here on. -/
theorem keeps_of_settled (lawful : Lawful w) {v : Vendor} {q : Query} {a : Artifact}
    (settled : Settled v q w.store.types a) : Keeps w v q a := by
  intro w' steps s live same j
  have later := steps_lawful lawful steps
  have answer : w'.afresh v s.query j = .ok a := by
    rw [afresh, same]
    exact compile_of_settled (settled_of_extends settled (steps_extend steps)) j
  rw [compiles_afresh later live, prepares_afresh later live, answer]
  exact ⟨rfl, rfl⟩

/-- Memoization is transparent. -/
theorem memo_transparent (reachable : Reachable w) {s : QuerySet} (live : s ∈ w.sets)
    (v : Vendor) : Transparent w s v := by
  have lawful := lawful_of_reachable reachable
  exact {
    compiles := compiles_afresh lawful live v
    prepares := prepares_afresh lawful live v
    compiled := fun j _ answer =>
      keeps_of_settled (step_lawful lawful (.compile v live j))
        (settled_of_compiles lawful live answer)
    prepared := fun j _ answer =>
      keeps_of_settled (step_lawful lawful (.prepare v live j))
        (settled_of_prepares lawful live answer) }

section
open Library

/-- The name that authors are asked for by. -/
def soughtName : Param := .scalar "n" "name"

/-- The authors of a name. -/
def soughtAuthors : Query :=
  { Query.ofModel Author.model with
    condition := some (.binary .equal (.column Author.nameColumn) (.param soughtName))
    params := ⟨[soughtName]⟩
    memo := 1 }

/-- A caller that has built the authors of a name. -/
def seeking : World :=
  let all : World := after ⟨{}, []⟩ ((QuerySet.ofModel Author.model).exec {} [])
  all.after (((Builder.filter (.binary .equal (.column Author.nameColumn)
    (.param soughtName))).apply (.building (Query.ofModel Author.model))).exec all.store [])

private theorem seeking_steps :
    Steps ⟨{}, []⟩ seeking ∧ .building soughtAuthors ∈ seeking.sets :=
  ⟨.step (.step .none (.objects Author.model [])) (.change _ List.mem_cons_self []),
    List.mem_cons_self⟩

private theorem soughtAuthors_registered : ∀ p, .param p ∈ soughtAuthors.leaves →
    ∃ r, soughtAuthors.params.byToken? p.token = some r := by
  intro p occurs
  have same : p = soughtName := by
    simpa [soughtAuthors, Query.ofModel, Query.leaves, Query.frontLeaves, Query.expressions,
      Expr.leaves, Bound.leaves, Bound.zero] using occurs
  exact ⟨soughtName, by rw [same]; rfl⟩

/-- Authors of a name are prepared for MySQL, and a copy of the query set compiles for
Postgres afterwards. -/
theorem soughtAuthors_transparent : ∃ w s, Reachable w ∧ s ∈ w.sets ∧
    (∃ a, w.compiles .postgres s [] = .ok a) ∧ Transparent w s .postgres := by
  obtain ⟨sought, live⟩ := seeking_steps
  have mysql := memo_transparent ⟨_, sought⟩ live .mysql
  obtain ⟨types', walked, typed⟩ : ∃ types',
      (soughtAuthors.walk resolver).exec .empty [] = ((.ok (), types'), []) ∧
        ∀ p ∈ soughtAuthors.params.params, types'.fieldType? p ≠ none := ⟨_, rfl, by decide⟩
  obtain ⟨a, _, compiled⟩ := compile_total (v := .mysql) soughtAuthors_registered rfl walked typed
  have answer : seeking.prepares .mysql (.building soughtAuthors) [] = .ok (some a) := by
    rw [mysql.prepares]
    exact congrArg (fun run => Except.map some run.1.1) compiled
  have held := mem_after live ((QuerySet.prepareFor .mysql (.building soughtAuthors)).exec
    seeking.store [])
  have copying := Step.clone held
  have copied := Steps.step (.step sought (.prepare .mysql live [])) copying
  have copy := List.mem_cons_of_mem (.building soughtAuthors) held
  have postgres := memo_transparent ⟨_, copied⟩ copy .postgres
  refine ⟨_, _, ⟨_, copied⟩, copy, ?_, postgres⟩
  obtain ⟨again, _⟩ := mysql.prepared [] a answer _ (.step .none copying) _ copy rfl []
  rw [(memo_transparent ⟨_, copied⟩ copy .mysql).compiles] at again
  rw [postgres.compiles]
  exact compile_other .postgres again

end

end World

end PreparedSql
