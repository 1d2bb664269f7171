import PreparedSql.Proofs.CompiledParameters
import PreparedSql.Proofs.MemoCells

/-! Compilations that fail. Nothing is kept compiled and nothing that was settled is
touched, but what was found on the way to the failure stays found: a parameter that
was typed before another one turned out to have no type is typed from then on. So a
query that is refused for a parameter without a type may compile when it is tried
again; for every other reason it is refused for good. -/
namespace PreparedSql

open PreparedSql.Action

namespace Prepared

/-! ### What the writing of a body fails with -/

/-- Why a body is not written: a token that nobody registered, or a literal that leaves the calendar
at UTC. -/
inductive Unwritten : Failure → Prop where
  | unregisteredToken (token : String) : Unwritten (.unregisteredToken token)
  | outsideCalendar : Unwritten (.conversion .outsideCalendar)

/-- Whenever the filling fails, it is over a token or a literal. -/
def Unknowing {α : Type} (f : Filling α) : Prop :=
  ∀ l failure l', f.run.run l = (.error failure, l') → Unwritten failure

section
variable {α β : Type} {v : Vendor} {types : Types} {params : Registry}

private theorem unknowing_of_yields {f : Filling α} (yields : ∀ l, ∃ x l', Yields f l x l') :
    Unknowing f := by
  intro l failure l' run
  obtain ⟨x, l'', succeeds⟩ := yields l
  rw [Yields] at succeeds
  rw [succeeds] at run
  cases run

private theorem unknowing_bind {f : Filling α} {g : α → Filling β} (first : Unknowing f)
    (rest : ∀ x, Unknowing (g x)) : Unknowing (f >>= g) := by
  intro l failure l' run
  rw [run_bind] at run
  rcases inner : f.run.run l with ⟨failure' | x, middle⟩
  · rw [inner] at run
    cases run
    exact first l failure l' inner
  · rw [inner] at run
    exact rest x middle failure l' run

private theorem baseOf_unknowing (token : String) : Unknowing (baseOf types params token) := by
  refine unknowing_bind (unknowing_of_yields fun l => ⟨_, _, rfl⟩) fun l => ?_
  split
  · exact unknowing_of_yields fun l => ⟨_, _, rfl⟩
  · split
    · intro l failure l' run
      cases run
      exact .unregisteredToken token
    · exact unknowing_of_yields fun l => ⟨_, _, rfl⟩

private theorem part_unknowing (h : Hole) : Unknowing (part v types params h) := by
  cases h with
  | literal x =>
    refine unknowing_bind (fun l failure l' run => ?_) fun text =>
      unknowing_of_yields fun l => ⟨_, _, rfl⟩
    cases written : v.flavor.literal x with
    | ok text =>
      rw [written] at run
      cases run
    | error other =>
      rw [written] at run
      cases run
      obtain ⟨rfl, _⟩ := Flavor.outside_of_unwritten written
      exact .outsideCalendar
  | element token index =>
    refine unknowing_bind (baseOf_unknowing token) fun base => ?_
    exact unknowing_of_yields fun l => ⟨_, _, rfl⟩
  | span low high => exact unknowing_of_yields fun l => ⟨_, _, rfl⟩

private theorem parts_unknowing (ps : List Piece) : Unknowing (parts v types params ps) := by
  have whole {x : List Part} : Unknowing (pure x : Filling (List Part)) := unknowing_of_yields fun l => ⟨_, _, rfl⟩
  induction ps with
  | nil => exact whole
  | cons p ps ih =>
    cases p with
    | text s => exact unknowing_bind ih fun _ => whole
    | hole h => exact unknowing_bind (part_unknowing h) fun _ => unknowing_bind ih fun _ => whole

/-- A body is not written only where a token is met that nobody registered, or a literal that leaves
the calendar. -/
theorem write_unknowing {q : Query} {failure : Failure} (failed : write v types q = .error failure) :
    Unwritten failure := by
  have filling : Unknowing (bodyOf v <$> parts v types q.params (pieces v q)) := by
    rw [map_eq_pure_bind]
    refine unknowing_bind (parts_unknowing _) fun ps => ?_
    exact unknowing_of_yields fun l => ⟨_, _, rfl⟩
  rw [write, fill_select] at failed
  rcases run : (bodyOf v <$> parts v types q.params (pieces v q)).run {} with ⟨failure' | body, l⟩
  · simp only [run] at failed
    cases failed
    exact filling {} failure l run
  · simp only [run] at failed
    cases failed

end

/-! ### Why a compilation fails -/

section
variable {v : Vendor} {q : Query} {ts ts' later : Types} {failure : Failure} {j j' : Journal}

/-- The first parameter of the registry that has no type, and those behind it. -/
def Untyped (q : Query) (ts : Types) (p : Param) (behind : List Param) : Prop :=
  ∃ before, q.params.params = before ++ p :: behind ∧ ts.fieldType? p = none ∧
    ∀ r ∈ before, ts.fieldType? r ≠ none

private theorem find_untyped {p : Param}
    (found : q.params.params.find? (fun p => (ts.fieldType? p).isNone) = some p) :
    ∃ behind, Untyped q ts p behind := by
  obtain ⟨missing, before, behind, split, typed⟩ := List.find?_eq_some_iff_append.mp found
  refine ⟨behind, before, split, Option.isNone_iff_eq_none.mp missing, fun r member none => ?_⟩
  have other := typed r member
  rw [none] at other
  cases other

private theorem find_typed
    (found : q.params.params.find? (fun p => (ts.fieldType? p).isNone) = none) :
    ∀ p ∈ q.params.params, ts.fieldType? p ≠ none := by
  intro p member none
  have other := List.find?_eq_none.mp found p member
  rw [none] at other
  exact other rfl

/-- What a compilation fails with, by the types that it leaves: the walk refuses a place,
a registered parameter has no type, or the body cannot be written. -/
inductive Cause (v : Vendor) (q : Query) (ts' : Types) : Failure → Prop where
  | misplaced {failure : Failure} (misplaced : Misplaced failure)
    (refused : ∀ ts j, ((q.walk resolver).exec ts j).1.1 = .error failure) : Cause v q ts' failure
  | untyped {p : Param} {behind : List Param}
    (walks : ∀ ts j, ((q.walk resolver).exec ts j).1.1 = .ok ())
    (missing : Untyped q ts' p behind) : Cause v q ts' (.missingParameterType p.name)
  | unwritten {failure : Failure} (walks : ∀ ts j, ((q.walk resolver).exec ts j).1.1 = .ok ())
    (typed : ∀ p ∈ q.params.params, ts'.fieldType? p ≠ none)
    (unwritten : write v ts' q = .error failure) : Cause v q ts' failure

theorem cause_of_failed (run : (compile v q).exec ts j = ((.error failure, ts'), j')) :
    Cause v q ts' failure := by
  have same (ts'' : Types) (k : Journal) := walk_agree q ts'' k ts j
  rw [exec_compile] at run
  rcases walked : (q.walk resolver).exec ts j with ⟨⟨failure' | _, ts''⟩, j''⟩
  · rw [walked] at run same
    cases run
    exact .misplaced (walk_failsWith q ts j failure _ _ walked) same
  · rw [walked] at run same
    dsimp only at run
    cases found : q.params.params.find? fun p => (ts''.fieldType? p).isNone with
    | some p =>
      rw [found] at run
      cases run
      obtain ⟨behind, missing⟩ := find_untyped found
      exact .untyped same missing
    | none =>
      rw [found] at run
      cases written : write v ts'' q with
      | ok a =>
        rw [written] at run
        cases run
      | error failure' =>
        rw [written] at run
        cases run
        exact .unwritten same (find_typed found) written

/-! ### Compiling again -/

/-- What the action does is not up to the journal. -/
def Deaf {σ α : Type} (a : Action σ α) : Prop :=
  ∀ s j j', (a.exec s j).1 = (a.exec s j').1

private theorem deaf_bind {σ α β : Type} {a : Action σ α} {f : α → Action σ β} (first : Deaf a)
    (rest : ∀ x, Deaf (f x)) : Deaf (a >>= f) := by
  intro s j j'
  have same := first s j j'
  rw [exec_bind, exec_bind]
  generalize a.exec s j = run, a.exec s j' = run' at same
  obtain ⟨⟨failure | x, t⟩, k⟩ := run <;> obtain ⟨⟨failure' | y, t'⟩, k'⟩ := run' <;> cases same
  · rfl
  · exact rest x t k k'

private theorem resolve_deaf (p : Param) (s : Site) : Deaf (resolve p s) := by
  have settles : Deaf (resolve.settle p s) := by
    intro ts j j'
    unfold resolve.settle
    cases s.target <;> rfl
  unfold resolve
  split
  · exact fun _ _ _ => rfl
  · exact fun _ _ _ => rfl
  · split
    · exact settles
    · exact fun _ _ _ => rfl
  all_goals first | exact fun _ _ _ => rfl | exact settles

private theorem walk_deaf (q : Query) : Deaf (q.walk resolver) := by
  have composes : resolver.Composes Deaf :=
    { done := fun _ _ _ => rfl
      next := fun first rest => deaf_bind first fun _ => rest
      types := fun each => deaf_bind (fun _ _ _ => rfl) each }
  exact q.walk_composed composes fun p s _ => resolve_deaf p s

/-- A compilation comes to the same from the same types. -/
theorem compile_deaf (v : Vendor) (q : Query) : Deaf (compile v q) := by
  intro ts j j'
  have same := walk_deaf q ts j j'
  rw [exec_compile, exec_compile]
  generalize (q.walk resolver).exec ts j = run, (q.walk resolver).exec ts j' = run' at same
  obtain ⟨⟨failure | _, ts'⟩, k⟩ := run <;> obtain ⟨⟨failure' | _, ts''⟩, k'⟩ := run' <;> cases same
  · rfl
  · dsimp only
    split
    · rfl
    · split <;> rfl

/-- Whatever the walk refuses it refuses for good. -/
theorem compile_of_refused (refused : ∀ ts j, ((q.walk resolver).exec ts j).1.1 = .error failure)
    (later : Types) (k : Journal) : ((compile v q).exec later k).1.1 = .error failure := by
  have again := refused later k
  rw [exec_compile]
  generalize (q.walk resolver).exec later k = run at again
  obtain ⟨⟨failure' | _, ts'⟩, k'⟩ := run
  · cases again
    rfl
  · cases again

/-- What becomes of a query whose walk goes through: the registry holds a parameter
without a type, or what comes of it is what is written. -/
theorem compile_of_walked (walks : ∀ ts j, ((q.walk resolver).exec ts j).1.1 = .ok ())
    (ts : Types) (k : Journal) : ∃ ts', ((compile v q).exec ts k).1.2 = ts' ∧ ts.Extends ts' ∧
      ((∃ p behind, Untyped q ts' p behind ∧
          ((compile v q).exec ts k).1.1 = .error (.missingParameterType p.name)) ∨
        (∀ p ∈ q.params.params, ts'.fieldType? p ≠ none) ∧
          ((compile v q).exec ts k).1.1 = write v ts' q) := by
  refine ⟨_, rfl, (compile_fills v q ts k).fieldType, ?_⟩
  have walked := walks ts k
  rw [exec_compile]
  generalize (q.walk resolver).exec ts k = run at walked
  obtain ⟨⟨failure' | _, ts''⟩, k'⟩ := run
  · cases walked
  · dsimp only
    cases found : q.params.params.find? fun p => (ts''.fieldType? p).isNone with
    | some p =>
      obtain ⟨behind, missing⟩ := find_untyped found
      exact .inl ⟨p, behind, missing, rfl⟩
    | none =>
      refine .inr ?_
      cases written : write v ts'' q with
      | ok a => exact ⟨find_typed found, written.symm⟩
      | error failure => exact ⟨find_typed found, written.symm⟩

/-- A body that could not be written from the types of all parameters cannot be written
from more. -/
theorem compile_of_unwritten (walks : ∀ ts j, ((q.walk resolver).exec ts j).1.1 = .ok ())
    (typed : ∀ p ∈ q.params.params, ts'.fieldType? p ≠ none)
    (unwritten : write v ts' q = .error failure) (more : ts'.Extends later) (k : Journal) :
    ((compile v q).exec later k).1.1 = .error failure := by
  obtain ⟨ts'', _, further, outcome⟩ := compile_of_walked (v := v) walks later k
  have kept : ∀ p ∈ q.params.params, ts''.fieldType? p = ts'.fieldType? p := fun p member =>
    Types.fieldType?_of_extends (Types.extends_trans more further) (typed p member)
  rcases outcome with ⟨p, behind, ⟨before, split, missing, _⟩, _⟩ | ⟨_, answer⟩
  · have member : p ∈ q.params.params := by
      rw [split]
      exact List.mem_append_right _ List.mem_cons_self
    rw [kept p member] at missing
    exact absurd missing (typed p member)
  · rw [answer, write_congr v kept, unwritten]

/-- Types that have been found stay found, so the first parameter without one moves
towards the end of the registry. -/
theorem untyped_advances {p r : Param} {behind others : List Param}
    (first : Untyped q ts p behind) (more : ts.Extends ts') (next : Untyped q ts' r others) :
    r ∈ p :: behind := by
  obtain ⟨before, split, missing, typed⟩ := first
  obtain ⟨earlier, split', missing', _⟩ := next
  have member : r ∈ before ++ p :: behind := by
    rw [← split, split']
    exact List.mem_append_right _ List.mem_cons_self
  rcases List.mem_append.mp member with old | new
  · have kept := Types.fieldType?_of_extends more (typed r old)
    rw [missing'] at kept
    exact absurd kept.symm (typed r old)
  · exact new

end

end Prepared

/-! ### What a failed compilation leaves -/

namespace Store

open Prepared

/-- What a compilation that failed leaves of the store. -/
structure Unmade (v : Vendor) (q : Query) (t : Store) (failure : Failure) (t' : Store) : Prop where
  /-- Apart from the types everything is as it was; so nothing is compiled. -/
  kept : t' = { t with types := t'.types }
  /-- Empty cells may have been filled, those of parameters of the query. -/
  cells : t.types.Fills q.Names t'.types
  /-- Unless a type was missing, the query is refused so for good. -/
  again : (∀ name, failure ≠ .missingParameterType name) →
    ∀ later, t'.types.Extends later.types → later.memos q.memo = t.memos q.memo →
      ∀ k, ((compile v q).exec later k).1.1 = .error failure
  /-- A call that has found nothing fails the same way when it is made again. -/
  idle : t'.types = t.types → ∀ k, ((compile v q).exec t' k).1.1 = .error failure
  /-- When a type was missing, it was that of the first parameter in the registry which
  has none. Another call refuses that parameter or one behind it, or all have types then
  and what comes of it is what is written. -/
  untyped : ∀ name, failure = .missingParameterType name →
    ∃ p behind, p.name = name ∧ Untyped q t'.types p behind ∧
      ∀ later, t'.types.Extends later.types → later.memos q.memo = t.memos q.memo →
        ∀ k, ∃ t'', ((compile v q).exec later k).1.2.types = t'' ∧
          ((∃ r ∈ p :: behind, t''.fieldType? r = none ∧
              ((compile v q).exec later k).1.1 = .error (.missingParameterType r.name)) ∨
            (∀ r ∈ q.params.params, t''.fieldType? r ≠ none) ∧
              ((compile v q).exec later k).1.1.map (·.artifact) = write v t'' q)

section
variable {v : Vendor} {q : Query} {t t' : Store} {failure : Failure} {j j' : Journal}

/-- What is not in the cell of the query comes of the compilation without cells. -/
private theorem compile_missed (missed : (t.memos q.memo).filter (·.artifact.vendor == v) = none)
    (k : Journal) :
    ((compile v q).exec t k).1.1.map (·.artifact) = ((Prepared.compile v q).exec t.types k).1.1 ∧
      ((compile v q).exec t k).1.2.types = ((Prepared.compile v q).exec t.types k).1.2 := by
  rw [exec_compile, missed]
  rcases (Prepared.compile v q).exec t.types k with ⟨⟨failure | a, types⟩, k'⟩
  · exact ⟨rfl, rfl⟩
  · exact ⟨rfl, rfl⟩

private theorem error_of_map {outcome : Except Failure Compiled}
    (same : outcome.map (·.artifact) = .error failure) : outcome = .error failure := by
  cases outcome with
  | error failure' =>
    cases same
    rfl
  | ok c => cases same

/-- After a parameter had no type, another call refuses it or one behind it, or finds
types for all. -/
private theorem retried {p : Param} {behind : List Param}
    (walks : ∀ ts j, ((q.walk resolver).exec ts j).1.1 = .ok ()) (missing : Untyped q t.types p behind)
    (more : t.types.Extends t'.types)
    (missed : (t'.memos q.memo).filter (·.artifact.vendor == v) = none) (k : Journal) :
    ∃ ts, ((compile v q).exec t' k).1.2.types = ts ∧
      ((∃ r ∈ p :: behind, ts.fieldType? r = none ∧
          ((compile v q).exec t' k).1.1 = .error (.missingParameterType r.name)) ∨
        (∀ r ∈ q.params.params, ts.fieldType? r ≠ none) ∧
          ((compile v q).exec t' k).1.1.map (·.artifact) = write v ts q) := by
  obtain ⟨outcome, left⟩ := compile_missed missed k
  obtain ⟨ts, same, further, comes⟩ := compile_of_walked (v := v) walks t'.types k
  refine ⟨ts, left.trans same, ?_⟩
  rcases comes with ⟨r, others, next, refused⟩ | ⟨typed, written⟩
  · have untyped : ts.fieldType? r = none := by
      obtain ⟨_, _, none, _⟩ := next
      exact none
    have advanced := untyped_advances missing (Types.extends_trans more further) next
    exact .inl ⟨r, advanced, untyped, error_of_map (outcome.trans refused)⟩
  · exact .inr ⟨typed, outcome.trans written⟩

/-- What a compilation that fails leaves behind, and what comes of another one. -/
theorem unmade_of_failed (failed : (compile v q).exec t j = ((.error failure, t'), j')) :
    Unmade v q t failure t' := by
  have missed : (t.memos q.memo).filter (·.artifact.vendor == v) = none := by
    rw [exec_compile] at failed
    split at failed
    · cases failed
    · assumption
  obtain ⟨types, ran, rfl⟩ : ∃ types, ((Prepared.compile v q).exec t.types j).1 =
      (.error failure, types) ∧ t' = { t with types := types } := by
    rw [exec_compile, missed] at failed
    rcases ran : (Prepared.compile v q).exec t.types j with ⟨⟨failure' | a, types⟩, j''⟩
    · rw [ran] at failed
      cases failed
      exact ⟨types, rfl, rfl⟩
    · rw [ran] at failed
      cases failed
  have cause := cause_of_failed (Prod.ext ran rfl)
  have fills := compile_fills v q t.types j
  rw [ran] at fills
  -- Nothing was remembered, so nothing is found by another call either.
  have missedAgain {later : Store} (memo : later.memos q.memo = t.memos q.memo) :
      (later.memos q.memo).filter (·.artifact.vendor == v) = none := by
    rw [memo]
    exact missed
  refine ⟨rfl, fills, fun other later more memo k => ?_, fun same k => ?_, fun name named => ?_⟩
  · refine error_of_map ((compile_missed (missedAgain memo) k).1.trans ?_)
    cases cause with
    | misplaced _ refused => exact compile_of_refused refused later.types k
    | untyped _ _ => exact absurd rfl (other _)
    | unwritten walks typed unwritten => exact compile_of_unwritten walks typed unwritten more k
  · have heard := compile_deaf v q t.types k j
    rw [ran] at heard
    refine error_of_map ((compile_missed (missedAgain (by rfl)) k).1.trans ?_)
    rw [same, heard]
  · cases cause with
    | misplaced misplaced _ =>
      rw [named] at misplaced
      cases misplaced
    | unwritten _ _ unwritten =>
      have other := write_unknowing unwritten
      rw [named] at other
      cases other
    | @untyped p behind walks missing =>
      cases named
      exact ⟨p, behind, rfl, missing, fun later more memo k =>
        retried walks missing more (missedAgain memo) k⟩

end

section
open Library

def nickname : Param := .scalar "p" "nickname"
def fullName : Param := .scalar "r" "name"

/-- The authors of a name that has to equal a nickname. -/
def nicknamed : Query :=
  { Query.ofModel Author.model with
    condition := some (.binary .and (.binary .equal (.param nickname) (.param fullName))
      (.binary .equal (.column Author.nameColumn) (.param fullName)))
    params := ⟨[nickname, fullName]⟩ }

/-- The types once the name has been compared with its column. -/
private def named : Types :=
  (Types.empty.inferType fullName (.char 100)).inferNullable fullName false

private theorem nicknamed_refused : ∃ j', (compile .mysql nicknamed).exec {} [] =
    ((.error (.missingParameterType "nickname"), { types := named }), j') :=
  ⟨_, rfl⟩

/-- What a failed compilation of the authors of a nickname leaves. -/
theorem nicknamed_unmade : ∃ t' j', (compile .mysql nicknamed).exec {} [] =
    ((.error (.missingParameterType "nickname"), t'), j') ∧
      Unmade .mysql nicknamed {} (.missingParameterType "nickname") t' := by
  obtain ⟨j', refused⟩ := nicknamed_refused
  exact ⟨_, j', refused, unmade_of_failed refused⟩

private theorem nicknamed_registered : ∀ p, .param p ∈ nicknamed.leaves →
    ∃ r, nicknamed.params.byToken? p.token = some r := by
  intro p occurs
  have known : p = nickname ∨ p = fullName := by
    simpa [nicknamed, Query.ofModel, Query.leaves, Query.frontLeaves, Query.expressions,
      Expr.leaves, Bound.leaves, Bound.zero] using occurs
  rcases known with rfl | rfl
  · exact ⟨nickname, rfl⟩
  · exact ⟨fullName, rfl⟩

/-- The compilation that is refused types the name, and with its type the next one types
the nickname and succeeds. -/
theorem nicknamed_typed_by_failure : ∃ t' j', (compile .mysql nicknamed).exec {} [] =
    ((.error (.missingParameterType "nickname"), t'), j') ∧
      Types.empty.fieldType? fullName = none ∧ t'.types.fieldType? fullName = some (.char 100) ∧
      ∃ c, ((compile .mysql nicknamed).exec t' []).1.1 = .ok c := by
  obtain ⟨j', refused⟩ := nicknamed_refused
  obtain ⟨later, walked, typed⟩ : ∃ later,
      (nicknamed.walk resolver).exec named [] = ((.ok (), later), []) ∧
        ∀ p ∈ nicknamed.params.params, later.fieldType? p ≠ none := ⟨_, rfl, by decide⟩
  obtain ⟨a, _, compiled⟩ := compile_total (v := .mysql) nicknamed_registered rfl walked typed
  refine ⟨_, j', refused, rfl, rfl, ⟨0, a⟩, ?_⟩
  rw [exec_compile]
  simp only [compiled, Option.filter_none]

end

end Store

end PreparedSql
