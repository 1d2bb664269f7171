import PreparedSql.Proofs.ChangeRelations
import PreparedSql.Proofs.SettledTypes

/-! What happens to the cells that keep compiled statements. A query set that is
built has a cell that was handed out for it and that nothing is in. A compilation
puts what it made into the cell of its query, unless something is in there, and
leaves all other cells alone. -/
namespace PreparedSql

open PreparedSql.Action

namespace Query

/-- Both queries have one cell. -/
def SameMemo (q q' : Query) : Prop :=
  q'.memo = q.memo

theorem sameMemo_respected : Respected SameMemo where
  trans first next := Eq.trans next first
  beside _ memo := memo
  attach _ _ _ := rfl
  anew _ _ _ := rfl

end Query

/-! ### Building -/

/-- What an action on the store leaves: an outcome, the store and the journal. -/
abbrev Ran (α : Type) := (Except Failure α × Store) × Journal

namespace Store

/-- The store after a cell was handed out. -/
def handedOut (t : Store) : Store :=
  { t with nextMemo := t.nextMemo + 1 }

/-- At most a cell was handed out, and a query set that came of it is being built
and has that cell. -/
structure Builds (t : Store) (run : Ran QuerySet) : Prop where
  store : run.1.2 = t ∨ run.1.2 = t.handedOut
  fresh : ∀ s, run.1.1 = .ok s → run.1.2 = t.handedOut ∧ ∃ q, s = .building q ∧ q.memo = t.nextMemo

/-- To build is not to put anything into cells. -/
theorem kept_of_builds {t : Store} {run : Ran QuerySet} (builds : t.Builds run) :
    run.1.2.memos = t.memos ∧ run.1.2.types = t.types := by
  rcases builds.store with same | handed
  · rw [same]
    exact ⟨rfl, rfl⟩
  · rw [handed]
    exact ⟨rfl, rfl⟩

end Store

namespace QuerySet

theorem builds_ofModel (m : Model) (t : Store) (j : Journal) :
    t.Builds ((ofModel m).exec t j) where
  store := .inr rfl
  fresh s answer := by
    cases answer
    exact ⟨rfl, _, rfl, rfl⟩

/-- A change that is refused hands out a cell all the same, unless the query set is
prepared. -/
theorem builds_derive (operation : String) {change : Action Query Unit}
    (keeps : Moves Query.SameMemo change) (s : QuerySet) (t : Store) (j : Journal) :
    t.Builds ((derive operation change s).exec t j) := by
  cases s with
  | prepared q c => exact ⟨.inl rfl, fun s refused => by cases refused⟩
  | building q =>
    have moved := keeps { q with memo := t.nextMemo } j
    have opened : (derive operation change (building q)).exec t j =
        match change.exec { q with memo := t.nextMemo } j with
        | ((.ok (), q'), j') => ((.ok (building q'), t.handedOut), j')
        | ((.error failure, _), j') => ((.error failure, t.handedOut), j') := by
      simp only [derive, narrowed, stillBuilding, Store.freshMemo, exec_bind, exec_ofExcept,
        exec_get, exec_set, exec_pure, exec_separately]
      rcases change.exec { q with memo := t.nextMemo } j with ⟨⟨failure | _, q'⟩, j'⟩ <;> rfl
    rw [opened]
    generalize change.exec { q with memo := t.nextMemo } j = run at moved
    obtain ⟨⟨failure | _, q'⟩, j'⟩ := run
    · exact ⟨.inr rfl, fun s refused => by cases refused⟩
    · refine ⟨.inr rfl, fun s answer => ?_⟩
      cases answer
      exact ⟨rfl, q', rfl, moved⟩

theorem builds_apply (b : Builder) (s : QuerySet) (t : Store) (j : Journal) :
    t.Builds ((b.apply s).exec t j) := by
  obtain ⟨operation, same⟩ := b.apply_eq s
  rw [same]
  exact builds_derive operation (b.respected_change Query.sameMemo_respected) s t j

theorem builds_combine (operation : String) (op : BinaryOperator) (other s : QuerySet) (t : Store)
    (j : Journal) : t.Builds ((combine operation op other s).exec t j) := by
  cases other with
  | prepared q c => exact ⟨.inl rfl, fun s refused => by cases refused⟩
  | building q =>
    exact builds_derive operation (Query.respected_combine Query.sameMemo_respected q op) s t j

end QuerySet

/-! ### Compiling -/

namespace Store

/-- Something was compiled for a query, or found in its cell, or refused. -/
structure Compiles (v : Vendor) (q : Query) (t : Store) (j : Journal) (run : Ran Compiled) :
    Prop where
  /-- What comes out is what comes out without a cell. -/
  outcome : run.1.1.map (·.artifact) = ((Prepared.compile v q).exec t.types j).1.1
  types : t.types.Extends run.1.2.types
  nextMemo : run.1.2.nextMemo = t.nextMemo
  /-- Only an empty cell is filled, that of the query, with what came out. -/
  memos : ∀ m, run.1.2.memos m = t.memos m ∨
    m = q.memo ∧ ∃ c, run.1.1 = .ok c ∧ run.1.2.memos m = some c
  settled : ∀ c, run.1.1 = .ok c →
    c.artifact.vendor = v ∧ Prepared.Settled v q run.1.2.types c.artifact

/-- What is found for a database is for that database. -/
theorem found_for {held : Option Compiled} {v : Vendor} {c : Compiled}
    (found : held.filter (·.artifact.vendor == v) = some c) :
    held = some c ∧ c.artifact.vendor = v := by
  obtain ⟨there, vendor⟩ := Option.filter_eq_some_iff.mp found
  exact ⟨there, by simpa using vendor⟩

/-- What is in the cell for the database is found; otherwise the query is compiled and
remembered. -/
theorem exec_compile (v : Vendor) (q : Query) (t : Store) (j : Journal) :
    (compile v q).exec t j = match (t.memos q.memo).filter (·.artifact.vendor == v) with
      | some c => ((.ok c, t), j)
      | none => match (Prepared.compile v q).exec t.types j with
        | ((.ok a, types), j') =>
          ((.ok ⟨t.nextSerial, a⟩, ({ t with types := types, nextSerial := t.nextSerial + 1 } :
            Store).remember q.memo ⟨t.nextSerial, a⟩), j')
        | ((.error failure, types), j') => ((.error failure, { t with types := types }), j') := by
  cases found : (t.memos q.memo).filter (·.artifact.vendor == v) with
  | some c => simp only [compile, exec_bind, exec_get, found, exec_pure]
  | none =>
    simp only [compile, withTypes, exec_bind, exec_get, found, exec_zoom]
    rcases (Prepared.compile v q).exec t.types j with ⟨⟨failure | a, types⟩, j'⟩ <;> rfl

/-- No compilation changes what is known of parameters. -/
theorem compile_retains (v : Vendor) (q : Query) (t : Store) (j : Journal) :
    t.types.Retains ((compile v q).exec t j).1.2.types := by
  rw [exec_compile]
  split
  · exact t.types.retains_refl
  · have fills := Prepared.compile_fills v q t.types j
    generalize (Prepared.compile v q).exec t.types j = run at fills
    obtain ⟨⟨failure | a, types⟩, j'⟩ := run
    · exact fills.toRetains
    · exact fills.toRetains

open Prepared in
/-- Compiling with the cells is compiling without, as long as what is in the cell
of the query is settled. -/
theorem compiles (v : Vendor) (q : Query) {t : Store}
    (filled : ∀ c, t.memos q.memo = some c → Settled c.artifact.vendor q t.types c.artifact)
    (j : Journal) : Compiles v q t j ((compile v q).exec t j) := by
  rw [exec_compile]
  cases found : (t.memos q.memo).filter (·.artifact.vendor == v) with
  | some c =>
    obtain ⟨held, vendor⟩ := found_for found
    have settled := filled c held
    rw [vendor] at settled
    refine ⟨(compile_of_settled settled j).symm, t.types.extends_refl, rfl, fun m => .inl rfl, ?_⟩
    rintro _ ⟨⟩
    exact ⟨vendor, settled⟩
  | none =>
    have moved := (compile_fills v q t.types j).fieldType
    dsimp only
    rcases ran : (Prepared.compile v q).exec t.types j with ⟨⟨failure | a, types⟩, j'⟩
    · rw [ran] at moved
      exact ⟨by rw [ran]; rfl, moved, rfl, fun m => .inl rfl, fun c refused => by cases refused⟩
    · rw [ran] at moved
      refine ⟨by rw [ran]; rfl, moved, rfl, fun m => ?_, ?_⟩
      · by_cases own : m = q.memo
        · subst own
          cases held : t.memos q.memo with
          | some c => exact .inl (by simp [remember, held])
          | none => exact .inr ⟨rfl, _, rfl, by simp [remember, held]⟩
        · exact .inl (if_neg own)
      · rintro _ ⟨⟩
        exact ⟨vendor_of_compiled ran, settled_of_compiled ran⟩

end Store

/-- A query set that is prepared for the database is the answer itself; any other one
is compiled. -/
theorem QuerySet.exec_prepareFor (v : Vendor) (s : QuerySet) (t : Store) (j : Journal) :
    (s.prepareFor v).exec t j = match s.compiled?.filter (·.artifact.vendor == v) with
      | some _ => ((.ok s, t), j)
      | none => match (Store.compile v s.query).exec t j with
        | ((.ok c, t'), j') => ((.ok (.prepared s.query c), t'), j')
        | ((.error failure, t'), j') => ((.error failure, t'), j') := by
  unfold prepareFor
  cases s.compiled?.filter (·.artifact.vendor == v) with
  | some c => rfl
  | none =>
    simp only [exec_bind]
    rcases (Store.compile v s.query).exec t j with ⟨⟨failure | c, t'⟩, j'⟩ <;> rfl

/-- Nor does a preparation. -/
theorem QuerySet.prepareFor_retains (v : Vendor) (s : QuerySet) (t : Store) (j : Journal) :
    t.types.Retains ((s.prepareFor v).exec t j).1.2.types := by
  rw [exec_prepareFor]
  split
  · exact t.types.retains_refl
  · have retains := Store.compile_retains v s.query t j
    generalize (Store.compile v s.query).exec t j = run at retains
    obtain ⟨⟨failure | c, t'⟩, j'⟩ := run
    · exact retains
    · exact retains

/-- A query that compiles and that nothing is kept compiled for is prepared, and kept. -/
theorem QuerySet.exec_prepareFor_compiled {v : Vendor} {q : Query} {t : Store} {types : Types}
    {a : Artifact} {j j' : Journal} (empty : t.memos q.memo = none)
    (compiled : (Prepared.compile v q).exec t.types j = ((.ok a, types), j')) :
    (prepareFor v (.building q)).exec t j = ((.ok (.prepared q ⟨t.nextSerial, a⟩),
      ({ t with types := types, nextSerial := t.nextSerial + 1 } : Store).remember q.memo
        ⟨t.nextSerial, a⟩), j') := by
  rw [exec_prepareFor, Store.exec_compile]
  simp only [compiled?, query, Option.filter_none, empty, compiled]

end PreparedSql
