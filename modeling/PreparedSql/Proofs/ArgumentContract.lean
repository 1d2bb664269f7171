import PreparedSql.Proofs.ProgramRuns
import PreparedSql.Session.Canned

/-! What a prepared query set accepts as arguments, and what it makes of them, along the
rest of a run. Its parameters have types that stay, so arguments that are accepted are
accepted for good, with the same values. Whether a parameter accepts NULL may be open
when a query set is prepared, though: a pattern does not settle it, nor does a
comparison with anything else than a column of some type. Another query that compares
the parameter with a column settles it then, and from there on a NULL is accepted that
was refused before. -/
namespace PreparedSql

namespace Outcome

variable {ε α β : Type} {xs : List α}

theorem mapM_congr {f g : α → Except ε β} (same : ∀ x ∈ xs, f x = g x) : xs.mapM f = xs.mapM g := by
  induction xs with
  | nil => rfl
  | cons x xs ih =>
    have rest := ih fun y member => same y (List.mem_cons_of_mem x member)
    rw [List.mapM_cons, List.mapM_cons, same x List.mem_cons_self, rest]

theorem filterMapM_congr {f g : α → Except ε (Option β)} (same : ∀ x ∈ xs, f x = g x) :
    xs.filterMapM f = xs.filterMapM g := by
  induction xs with
  | nil => rfl
  | cons x xs ih =>
    have rest := ih fun y member => same y (List.mem_cons_of_mem x member)
    rw [List.filterMapM_cons, List.filterMapM_cons, same x List.mem_cons_self, rest]

theorem filterMapM_ok {f : α → Except ε (Option β)} {ys : List β} (run : xs.filterMapM f = .ok ys) :
    ∀ x ∈ xs, ∃ y, f x = .ok y := by
  induction xs generalizing ys with
  | nil =>
    intro x member
    cases member
  | cons x xs ih =>
    rw [List.filterMapM_cons] at run
    obtain ⟨y, first, rest⟩ := bind_ok.mp run
    intro x' member
    rcases List.mem_cons.mp member with rfl | later
    · exact ⟨y, first⟩
    · cases y with
      | none => exact ih rest x' later
      | some y =>
        obtain ⟨zs, others, _⟩ := bind_ok.mp rest
        exact ih others x' later

theorem filterMapM_error {f : α → Except ε (Option β)} {failure : ε}
    (failed : xs.filterMapM f = .error failure) : ∃ x ∈ xs, f x = .error failure := by
  induction xs with
  | nil => cases failed
  | cons x xs ih =>
    have later (others : xs.filterMapM f = .error failure) : ∃ y ∈ x :: xs, f y = .error failure := by
      obtain ⟨y, member, one⟩ := ih others
      exact ⟨y, List.mem_cons_of_mem x member, one⟩
    rw [List.filterMapM_cons] at failed
    rcases bind_error failed with first | ⟨y, _, rest⟩
    · exact ⟨x, List.mem_cons_self, first⟩
    · cases y with
      | none => exact later rest
      | some y =>
        rcases bind_error rest with others | ⟨zs, _, answer⟩
        · exact later others
        · cases answer

end Outcome

/-! ### One parameter -/

namespace Param

variable {p : Param} {ts ts' : Types} {a : Argument}

/-- The values that an argument supplies for a parameter: its items for an array. -/
def supplied (p : Param) (a : Argument) : List Value :=
  match p.size with
  | none => [a.carried]
  | some _ => (p.items a.carried).toOption.getD []

/-- Whether NULL is accepted matters to NULL alone. -/
theorem cleanOne_present {t : FieldType} {v : Value} (present : v.isNull = false)
    (nullable nullable' : Bool) : p.cleanOne t nullable v = p.cleanOne t nullable' v := by
  simp only [cleanOne, FieldType.clean, present, Bool.false_eq_true, ↓reduceIte]

/-- What is accepted where NULL is not is accepted where it is. -/
theorem cleanOne_accepted {t : FieldType} {v x : Value}
    (accepted : p.cleanOne t false v = .ok x) : p.cleanOne t true v = .ok x := by
  cases null : v.isNull with
  | false =>
    rw [← accepted]
    exact cleanOne_present null true false
  | true =>
    simp only [cleanOne, FieldType.clean, null, ↓reduceIte, Bool.false_or, Bool.true_or] at accepted ⊢
    split at accepted
    · exact accepted
    · cases accepted

/-- An argument is cleaned by its values. -/
theorem clean_congr (types : ts'.fieldType? p = ts.fieldType? p)
    (values : ∀ t, ts.fieldType? p = some t → ∀ v ∈ p.supplied a,
      p.cleanOne t (ts'.isNullable p) v = p.cleanOne t (ts.isNullable p) v) :
    p.clean ts' a = p.clean ts a := by
  unfold clean
  rw [types]
  cases typed : ts.fieldType? p with
  | none => rfl
  | some t =>
    have values := values t typed
    unfold supplied at values
    cases sized : p.size with
    | none =>
      rw [sized] at values
      have one := values a.carried List.mem_cons_self
      simp only [one]
    | some size =>
      rw [sized] at values
      cases listed : p.items a.carried with
      | error failure => rfl
      | ok items =>
        rw [listed] at values
        have all := Outcome.mapM_congr values
        simp only [Except.toOption, Option.getD_some] at all
        simp only [bind, Except.bind, all]

/-- The values of an argument that is accepted are accepted one by one. -/
theorem cleanOne_of_clean {t : FieldType} {vs : List Value} (typed : ts.fieldType? p = some t)
    (accepted : p.clean ts a = .ok vs) :
    ∀ v ∈ p.supplied a, ∃ x, p.cleanOne t (ts.isNullable p) v = .ok x := by
  unfold clean at accepted
  rw [typed] at accepted
  unfold supplied
  cases sized : p.size with
  | none =>
    simp only [sized] at accepted
    obtain ⟨x, one, _⟩ := Outcome.bind_ok.mp accepted
    intro v member
    rw [List.mem_singleton.mp member]
    exact ⟨x, one⟩
  | some size =>
    simp only [sized] at accepted
    obtain ⟨items, listed, rest⟩ := Outcome.bind_ok.mp accepted
    rw [listed]
    split at rest
    · cases rest
    · obtain ⟨front, mapped, _⟩ := Outcome.bind_ok.mp rest
      obtain ⟨_, each⟩ := Outcome.mapM_ok mapped
      intro v member
      obtain ⟨i, inside, rfl⟩ := List.getElem_of_mem member
      obtain ⟨x, _, one⟩ := each i _ (List.getElem?_eq_getElem inside)
      exact ⟨x, one⟩

/-- Nothing had said whether NULL is accepted, and then something said that it is. -/
def Opened (ts ts' : Types) (p : Param) : Prop :=
  ts.nullable? p = none ∧ ts'.nullable? p = some true

/-- A cell goes on saying whether NULL is accepted, unless it is opened. -/
theorem isNullable_kept (more : ts.Retains ts') (closed : ¬Opened ts ts' p) :
    ts'.isNullable p = ts.isNullable p := by
  have opened : ts.isNullable p = (ts.nullable? p).getD false := rfl
  have opened' : ts'.isNullable p = (ts'.nullable? p).getD false := rfl
  rw [opened, opened']
  cases known : ts.nullable? p with
  | some b => rw [more.nullable p b known]
  | none =>
    cases later : ts'.nullable? p with
    | none => rfl
    | some b =>
      cases b with
      | false => rfl
      | true => exact absurd ⟨known, later⟩ closed

theorem isNullable_opened (opened : Opened ts ts' p) :
    ts.isNullable p = false ∧ ts'.isNullable p = true := by
  obtain ⟨before, later⟩ := opened
  rw [Types.nullable?] at before later
  rw [Types.isNullable, Types.isNullable, before, later]
  exact ⟨rfl, rfl⟩

variable (typed : ts.fieldType? p ≠ none) (more : ts.Retains ts')
include typed more

/-- An argument that was accepted goes on being cleaned to the same values. -/
theorem clean_kept {vs : List Value} (accepted : p.clean ts a = .ok vs) :
    p.clean ts' a = .ok vs := by
  rw [← accepted]
  refine clean_congr (Types.fieldType?_of_extends more.fieldType typed) fun t known v member => ?_
  obtain ⟨x, one⟩ := cleanOne_of_clean known accepted v member
  by_cases opened : Opened ts ts' p
  · obtain ⟨before, later⟩ := isNullable_opened opened
    rw [before] at one ⊢
    rw [later, one]
    exact cleanOne_accepted one
  · rw [isNullable_kept more opened]

/-- An argument that is cleaned otherwise supplies NULL to a parameter that was opened. -/
theorem opened_of_changed (changed : p.clean ts' a ≠ p.clean ts a) :
    Opened ts ts' p ∧ ∃ v ∈ p.supplied a, v.isNull = true := by
  have types := Types.fieldType?_of_extends more.fieldType typed
  constructor
  · by_contra closed
    refine changed (clean_congr types fun t _ v _ => ?_)
    rw [isNullable_kept more closed]
  · by_contra absent
    refine changed (clean_congr types fun t _ v member => cleanOne_present ?_ _ _)
    cases null : v.isNull with
    | false => rfl
    | true => exact absurd ⟨v, member, null⟩ absent

end Param

/-! ### All arguments -/

namespace Registry

variable {r : Registry} {ts ts' : Types} {as : Arguments}

/-- Arguments are cleaned one by one. -/
theorem cleanArguments_congr
    (same : ∀ p ∈ r.params, ∀ a, as.get? p.name = some a → p.clean ts' a = p.clean ts a) :
    r.cleanArguments ts' as = r.cleanArguments ts as := by
  unfold cleanArguments
  dsimp only
  split
  · rfl
  · refine Outcome.filterMapM_congr fun p member => ?_
    cases supplied : as.get? p.name with
    | none => rfl
    | some a => simp only [same p member a supplied]

theorem clean_of_accepted {cleaned : CleanedArguments}
    (accepted : r.cleanArguments ts as = .ok cleaned) :
    ∀ p ∈ r.params, ∀ a, as.get? p.name = some a → ∃ vs, p.clean ts a = .ok vs := by
  intro p member a supplied
  unfold cleanArguments at accepted
  split at accepted
  · cases accepted
  · obtain ⟨entry, one⟩ := Outcome.filterMapM_ok accepted p member
    simp only [supplied] at one
    obtain ⟨vs, cleaned, _⟩ := Outcome.bind_ok.mp one
    exact ⟨vs, cleaned⟩

/-- From the one types to the others a registry keeps its contract with the callers. -/
structure KeepsContract (r : Registry) (ts ts' : Types) : Prop where
  /-- What was accepted is accepted, and comes to the same values. -/
  accepted : ∀ as cleaned, r.cleanArguments ts as = .ok cleaned →
    r.cleanArguments ts' as = .ok cleaned
  /-- What comes to something else was refused for want of a word on NULL: it supplies one
  for a parameter of which nothing had said whether it accepts NULL, and now it does. -/
  changed : ∀ as, r.cleanArguments ts' as ≠ r.cleanArguments ts as →
    ∃ p ∈ r.params, p.Opened ts ts' ∧
      ∃ a, as.get? p.name = some a ∧ ∃ v ∈ p.supplied a, v.isNull = true

/-- The contract is kept where types are known and cells keep what they hold. -/
theorem keepsContract_of_retains (typed : ∀ p ∈ r.params, ts.fieldType? p ≠ none)
    (more : ts.Retains ts') : r.KeepsContract ts ts' where
  accepted as cleaned accepted := by
    rw [← accepted]
    refine cleanArguments_congr fun p member a supplied => ?_
    obtain ⟨vs, one⟩ := clean_of_accepted accepted p member a supplied
    rw [one]
    exact Param.clean_kept (typed p member) more one
  changed as changed := by
    by_contra unopened
    refine changed (cleanArguments_congr fun p member a supplied => ?_)
    by_contra differs
    obtain ⟨opened, null⟩ := Param.opened_of_changed (typed p member) more differs
    exact unopened ⟨p, member, opened, a, supplied, null⟩

end Registry

/-! ### Parameters of what is prepared -/

/-- Every registered parameter of the query has a type. -/
def Query.Typed (q : Query) (ts : Types) : Prop :=
  ∀ p ∈ q.params.params, ts.fieldType? p ≠ none

theorem Query.typed_retains {q : Query} {ts ts' : Types} (typed : q.Typed ts)
    (more : ts.Retains ts') : q.Typed ts' := by
  intro p member
  rw [Types.fieldType?_of_extends more.fieldType (typed p member)]
  exact typed p member

/-- What is compiled has types for its parameters. -/
theorem Store.typed_of_compiled {v : Vendor} {q : Query} {t t' : Store} {c : Compiled}
    {j j' : Journal} (filled : t.memos q.memo ≠ none → q.Typed t.types)
    (compiled : (compile v q).exec t j = ((.ok c, t'), j')) : q.Typed t'.types := by
  rw [exec_compile] at compiled
  split at compiled
  · next found =>
    cases compiled
    refine filled fun nothing => ?_
    rw [nothing] at found
    cases found
  · rcases ran : (Prepared.compile v q).exec t.types j with ⟨⟨failure | a, types⟩, j''⟩
    · rw [ran] at compiled
      cases compiled
    · rw [ran] at compiled
      cases compiled
      exact (Prepared.compile_ok_iff.mp ⟨_, ran⟩).2.1

namespace World

/-- Parameters have types in all that is prepared, and in all that something is kept
compiled for. -/
structure Typed (w : World) : Prop where
  prepared : ∀ q c, .prepared q c ∈ w.sets → q.Typed w.store.types
  filled : ∀ s ∈ w.sets, w.store.memos s.query.memo ≠ none → s.query.Typed w.store.types

variable {w w' : World}

theorem typed_start (types : Types) : Typed ⟨{ types := types }, []⟩ :=
  ⟨by simp, by simp⟩

theorem typed_more (typed : Typed w) {store : Store} (memos : store.memos = w.store.memos)
    (more : w.store.types.Retains store.types) : Typed { w with store := store } := by
  refine ⟨fun q c live => Query.typed_retains (typed.prepared q c live) more, fun s live held => ?_⟩
  have held : store.memos s.query.memo ≠ none := held
  rw [memos] at held
  exact Query.typed_retains (typed.filled s live held) more

theorem typed_hold (typed : Typed w) {s : QuerySet}
    (prepared : ∀ q c, s = .prepared q c → q.Typed w.store.types)
    (filled : w.store.memos s.query.memo ≠ none → s.query.Typed w.store.types) :
    Typed { w with sets := s :: w.sets } := by
  constructor
  · intro q c member
    rcases List.mem_cons.mp member with new | old
    · exact prepared q c new.symm
    · exact typed.prepared q c old
  · intro s' member held
    rcases List.mem_cons.mp member with rfl | old
    · exact filled held
    · exact typed.filled s' old held

/-- What is built has an empty cell. -/
theorem typed_build (lawful : Lawful w) (typed : Typed w) {run : Ran QuerySet}
    (builds : w.store.Builds run) : Typed (w.after run) := by
  obtain ⟨⟨outcome, store⟩, j⟩ := run
  have kept := Store.kept_of_builds builds
  have more : w.store.types.Retains store.types := by
    rw [kept.2]
    exact w.store.types.retains_refl
  have before := typed_more typed kept.1 more
  cases outcome with
  | error failure => exact before
  | ok s =>
    obtain ⟨_, q, rfl, cell⟩ := builds.fresh s rfl
    refine typed_hold before (fun q c same => by cases same) fun held => ?_
    have empty : store.memos q.memo = none := by
      rw [kept.1, cell]
      exact lawful.empty _ (Nat.le_refl _)
    exact absurd empty held

/-- A compilation fills the cell of a query whose parameters it has found types for. -/
theorem typed_compile (lawful : Lawful w) (typed : Typed w) (v : Vendor) {s : QuerySet}
    (live : s ∈ w.sets) (j : Journal) :
    Typed { w with store := ((Store.compile v s.query).exec w.store j).1.2 } := by
  have compiles := Store.compiles v s.query (lawful.filled s live) j
  have more := Store.compile_retains v s.query w.store j
  have made {c : Compiled} (answer : ((Store.compile v s.query).exec w.store j).1.1 = .ok c) :
      s.query.Typed ((Store.compile v s.query).exec w.store j).1.2.types :=
    Store.typed_of_compiled (typed.filled s live) (Prod.ext (Prod.ext answer rfl) rfl)
  refine ⟨fun q c live' => Query.typed_retains (typed.prepared q c live') more,
    fun s' live' held => ?_⟩
  rcases compiles.memos s'.query.memo with same | ⟨cell, c, answer, _⟩
  · have held : w.store.memos s'.query.memo ≠ none := by
      rw [← same]
      exact held
    exact Query.typed_retains (typed.filled s' live' held) more
  · rw [lawful.shared s' live' s live cell]
    exact made answer

theorem typed_prepare (lawful : Lawful w) (typed : Typed w) (v : Vendor) {s : QuerySet}
    (live : s ∈ w.sets) (j : Journal) : Typed (w.after ((s.prepareFor v).exec w.store j)) := by
  rw [QuerySet.exec_prepareFor]
  split
  · exact typed_hold typed (fun q c same => typed.prepared q c (same ▸ live)) (typed.filled s live)
  · have kept := typed_compile lawful typed v live j
    rcases ran : (Store.compile v s.query).exec w.store j with ⟨⟨failure | c, store⟩, j'⟩
    · rw [ran] at kept
      exact kept
    · rw [ran] at kept
      have made := Store.typed_of_compiled (typed.filled s live) ran
      refine typed_hold kept (fun q c' same => ?_) fun _ => made
      cases same
      exact made

theorem does_typed (lawful : Lawful w) (typed : Typed w) (does : Does Types.Retains w w') :
    Typed w' := by
  cases does with
  | build builds => exact typed_build lawful typed builds
  | @hold s live =>
    exact typed_hold typed (fun q c same => typed.prepared q c (same ▸ live)) (typed.filled s live)
  | prepare v live j => exact typed_prepare lawful typed v live j
  | compile v live j => exact typed_compile lawful typed v live j
  | declare more => exact typed_more typed rfl more
  | handOut n => exact typed_more typed rfl w.store.types.retains_refl

end World

namespace Program

variable {κ : Type} [Connection κ] {p p' : Program κ}

theorem step_typed (lawful : p.world.Lawful) (typed : p.world.Typed) (step : Step p p') :
    p'.world.Typed :=
  World.does_typed lawful typed (does_of_step step)

theorem typed_of_reachable (reachable : Reachable p) : p.world.Typed := by
  obtain ⟨session, ⟨types, fresh⟩, steps⟩ := reachable
  have start : ({ session := session, sets := [] } : Program κ).world = ⟨{ types := types }, []⟩ := by
    rw [world, fresh]
  induction steps with
  | none =>
    rw [start]
    exact World.typed_start types
  | step before next ih =>
    exact step_typed (lawful_of_reachable ⟨session, ⟨types, fresh⟩, before⟩) ih next

/-- Whatever a program goes on to do, a prepared query set keeps its contract. -/
theorem prepared_keepsContract (reachable : Reachable p) {q : Query} {c : Compiled}
    (live : .prepared q c ∈ p.sets) (steps : Steps p p') :
    q.params.KeepsContract p.types p'.types :=
  Registry.keepsContract_of_retains ((typed_of_reachable reachable).prepared q c live)
    (steps_retain steps)

section
open Library Prepared

/-- What a name has to contain, or an address has to be. -/
def soughtText : Param := .scalar "p" "text"

/-- The authors whose name contains the text. -/
def containing : Query :=
  { Query.ofModel Author.model with
    condition := some (.binary .contains (.column Author.nameColumn) (.param soughtText))
    params := ⟨[soughtText]⟩ }

/-- The authors whose address is the text. -/
def addressed : Query :=
  { Query.ofModel Author.model with
    condition := some (.binary .equal (.column Author.emailColumn) (.param soughtText))
    params := ⟨[soughtText]⟩
    memo := 1 }

private def asking : Program Canned :=
  let none : Program Canned := ⟨{ connection := { handle := ⟨1⟩ } }, []⟩
  let one := none.after ((QuerySet.given containing).exec none.session.store [])
  one.after ((QuerySet.given addressed).exec one.session.store [])

private theorem asking_reachable : Reachable asking :=
  ⟨_, ⟨.empty, rfl⟩, .step (.step .none (.make (.given containing) [])) (.make (.given addressed) [])⟩

theorem sought_registered {q : Query} (params : q.params.params = [soughtText])
    (leaves : ∀ p, .param p ∈ q.leaves → p = soughtText) :
    ∀ p, .param p ∈ q.leaves → ∃ r, q.params.byToken? p.token = some r := by
  intro p occurs
  refine ⟨soughtText, ?_⟩
  rw [leaves p occurs, Registry.byToken?, params]
  rfl

/-- The types after the pattern is prepared, and after the comparison is. -/
private def patternTypes : Types := Types.empty.inferType soughtText .text
private def comparedTypes : Types :=
  (patternTypes.inferType soughtText (.email 254)).inferNullable soughtText true

/-- The pattern is prepared, and then the comparison. -/
private theorem asking_run : ∃ p p' : Program Canned, ∃ c, Reachable p ∧
    .prepared containing c ∈ p.sets ∧ Steps p p' ∧ p.types = patternTypes ∧
      p'.types = comparedTypes := by
  have pattern : .building containing ∈ asking.sets := List.mem_cons_of_mem _ List.mem_cons_self
  have comparison : .building addressed ∈ asking.sets := List.mem_cons_self
  have walked : (containing.walk resolver).exec .empty [] = ((.ok (), patternTypes), []) := rfl
  have walked' : (addressed.walk resolver).exec patternTypes [] = ((.ok (), comparedTypes), []) := rfl
  obtain ⟨a, j, compiled⟩ := compile_total (v := .postgres) (sought_registered rfl (by
    simp [containing, Query.ofModel, Query.leaves, Query.frontLeaves, Query.expressions,
      Expr.leaves, Bound.leaves, Bound.zero])) rfl walked (by decide)
  obtain ⟨p, first, live, types, memos, sets⟩ := prepared_of_compiled pattern rfl compiled
  obtain ⟨a', j', compiled'⟩ := compile_total (v := .postgres) (sought_registered rfl (by
    simp [addressed, Query.ofModel, Query.leaves, Query.frontLeaves, Query.expressions,
      Expr.leaves, Bound.leaves, Bound.zero])) rfl walked' (by decide)
  rw [← types] at compiled'
  have empty : p.session.store.memos addressed.memo = none := (memos 1 (by decide)).trans rfl
  obtain ⟨p', second, _, types', _⟩ := prepared_of_compiled (sets comparison) empty compiled'
  obtain ⟨session, fresh, steps⟩ := asking_reachable
  exact ⟨p, p', _, ⟨session, fresh, .step steps first⟩, live, .step .none second, types, types'⟩

/-- The text that nobody knows. -/
private def unknownText : Arguments :=
  ⟨[("text", .value .null)]⟩

/-- A query for a pattern keeps its contract while another query is prepared. -/
theorem containing_keepsContract : ∃ p p' : Program Canned, ∃ c, Reachable p ∧
    .prepared containing c ∈ p.sets ∧ Steps p p' ∧
      containing.params.KeepsContract p.types p'.types := by
  obtain ⟨p, p', c, reachable, live, steps, _⟩ := asking_run
  exact ⟨p, p', c, reachable, live, steps, prepared_keepsContract reachable live steps⟩

/-- The prepared pattern refuses NULL, until the comparison with a column that accepts NULL
is prepared. -/
theorem containing_opened : ∃ p p' : Program Canned, ∃ c, Reachable p ∧
    .prepared containing c ∈ p.sets ∧ Steps p p' ∧
      containing.params.cleanArguments p.types unknownText =
        .error (.invalidParameterType "text" "NULL" .mustNotBeNull) ∧
      containing.params.cleanArguments p'.types unknownText =
        .ok [("text", [.varchar none])] := by
  obtain ⟨p, p', c, reachable, live, steps, before, later⟩ := asking_run
  refine ⟨p, p', c, reachable, live, steps, ?_, ?_⟩
  · rw [before]
    rfl
  · rw [later]
    rfl

end

end Program

end PreparedSql
