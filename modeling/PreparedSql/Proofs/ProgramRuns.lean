import PreparedSql.Proofs.MemoTransparency
import PreparedSql.Proofs.StreamProtocol

/-! Runs of a program that uses the library: query sets are built, combined, copied,
compiled and prepared, types of parameters are declared, operations are evaluated on
connections and prepared query sets executed, one call after the other and each of them
with whatever outcome. Evaluation and execution do nothing to the store but hand out
cells, so what holds of callers that only build and prepare holds of whole programs. -/
namespace PreparedSql

open PreparedSql.Action

/-! ### Operations that are evaluated at once -/

/-- The operations that a connection answers at once, by what they answer. -/
inductive Immediate : Type → Type 1 where
  | count : Immediate (Ranged .uint64)
  | hasRows : Immediate Bool
  | get {α : Type} (read : RowReader α) : Immediate α
  | first {α : Type} (read : RowReader α) : Immediate (Option α)
  | last {α : Type} (read : RowReader α) : Immediate (Option α)
  | atIndex {α : Type} (read : RowReader α) (index : Nat) : Immediate (Option α)
  | all {α : Type} (read : RowReader α) : Immediate (List α)
  /-- All rows, in the shape that the caller chooses. -/
  | allAs {α : Type} (read : RowReader α) : Immediate (List α)
  | iter {α : Type} (read : RowReader α) : Immediate (List (Except Failure α))
  | raw {α : Type} (read : RowReader α) (statement : String) : Immediate (List α)
  | create (row : NamedRow) : Immediate Affected
  | update (assignments : List (Column × Expr)) : Immediate Affected
  | delete : Immediate Affected

namespace Immediate

variable {κ : Type} [Connection κ] {α : Type}

def run : Immediate α → QuerySet → Action (Session κ) α
  | count => QuerySet.count
  | hasRows => QuerySet.hasRows
  | get read => QuerySet.get read
  | first read => QuerySet.first read
  | last read => QuerySet.last read
  | atIndex read index => QuerySet.atIndex read index
  | all read | allAs read => QuerySet.all read
  | iter read => QuerySet.iter read
  | raw read statement => QuerySet.raw read statement
  | create row => QuerySet.create row
  | update assignments => QuerySet.update assignments
  | delete => QuerySet.delete

end Immediate

/-! ### What evaluation does to the store -/

/-- Cells were handed out, and nothing else was done to the store. -/
def Store.HandsOut (t t' : Store) : Prop :=
  ∃ n, t' = { t with nextMemo := t.nextMemo + n }

theorem Store.handsOut_refl (t : Store) : t.HandsOut t :=
  ⟨0, rfl⟩

theorem Store.handsOut_trans {t t' t'' : Store} (first : t.HandsOut t') (next : t'.HandsOut t'') :
    t.HandsOut t'' := by
  obtain ⟨n, rfl⟩ := first
  obtain ⟨m, rfl⟩ := next
  exact ⟨n + m, by rw [Nat.add_assoc]⟩

/-- A copy is given a cell, and what is done to it is done apart. -/
theorem QuerySet.narrowed_handsOut (operation : String) (change : Action Query Unit)
    (s : QuerySet) : Moves Store.HandsOut (s.narrowed operation change) := by
  refine moves_bind Store.handsOut_trans ?_ fun q => ?_
  · refine moves_still Store.handsOut_refl fun t j => ?_
    rw [exec_ofExcept]
  · refine moves_bind Store.handsOut_trans ?_ fun memo => ?_
    · exact fun t j => ⟨1, rfl⟩
    · exact moves_still Store.handsOut_refl fun t j => rfl

namespace Session

variable {κ : Type} {α β : Type}

/-- Whatever became of the rest of the session, to its store nothing was done but that
cells were handed out. -/
def HandsOut (s s' : Session κ) : Prop :=
  s.store.HandsOut s'.store

private theorem handsOut_same {a : Action (Session κ) α}
    (same : ∀ s j, (a.exec s j).1.2.store = s.store) : Moves HandsOut a := by
  intro s j
  rw [HandsOut, same]
  exact s.store.handsOut_refl

private theorem handsOut_bind {a : Action (Session κ) α} {f : α → Action (Session κ) β}
    (first : Moves HandsOut a) (rest : ∀ x, Moves HandsOut (f x)) : Moves HandsOut (a >>= f) :=
  moves_bind Store.handsOut_trans first rest

private theorem handsOut_pure (x : α) : Moves HandsOut (pure x : Action (Session κ) α) :=
  handsOut_same fun _ _ => rfl

private theorem handsOut_throw (failure : Failure) :
    Moves HandsOut (throw failure : Action (Session κ) α) :=
  handsOut_same fun _ _ => rfl

private theorem handsOut_note (level : Level) (text : String) :
    Moves HandsOut (Action.note level text : Action (Session κ) Unit) :=
  handsOut_same fun _ _ => rfl

private theorem handsOut_ofExcept (outcome : Except Failure α) :
    Moves HandsOut (Action.ofExcept outcome : Action (Session κ) α) :=
  handsOut_same fun _ _ => by rw [exec_ofExcept]

private theorem handsOut_attempt {a : Action (Session κ) α} (moves : Moves HandsOut a) :
    Moves HandsOut a.attempt := by
  intro s j
  rw [exec_attempt]
  exact moves s j

private theorem handsOut_withStore {a : Action Store α} (moves : Moves Store.HandsOut a) :
    Moves HandsOut (withStore a : Action (Session κ) α) := by
  intro s j
  rw [withStore, exec_zoom]
  exact moves s.store j

variable [Connection κ]

private theorem handsOut_run (statement : String) :
    Moves HandsOut (run statement : Action (Session κ) _) :=
  handsOut_same fun _ _ => rfl

private theorem handsOut_fetch (statement : String) :
    Moves HandsOut (fetch statement : Action (Session κ) _) :=
  handsOut_bind (handsOut_run statement) fun _ => handsOut_pure _

private theorem handsOut_execute (statement : String) :
    Moves HandsOut (execute statement : Action (Session κ) Affected) :=
  handsOut_bind (handsOut_run statement) fun _ =>
    handsOut_bind (handsOut_ofExcept _) fun _ => handsOut_pure _

private theorem handsOut_load (read : RowReader α) (statement : String) :
    Moves HandsOut (load read statement : Action (Session κ) (List α)) :=
  handsOut_bind (handsOut_fetch statement) fun _ => handsOut_ofExcept _

private theorem handsOut_vendor : Moves HandsOut (vendor : Action (Session κ) Vendor) :=
  handsOut_bind (handsOut_same fun _ _ => rfl) fun _ => handsOut_ofExcept _

private theorem handsOut_statementFor (template : Flavor → Except Failure Template) :
    Moves HandsOut (QuerySet.statementFor template : Action (Session κ) String) :=
  handsOut_bind handsOut_vendor fun _ => handsOut_bind (handsOut_ofExcept _) fun _ =>
    handsOut_ofExcept _

private theorem handsOut_loadQuery (read : RowReader α) (q : Query) :
    Moves HandsOut (QuerySet.loadQuery read q : Action (Session κ) (List α)) :=
  handsOut_bind (handsOut_statementFor _) fun _ => handsOut_load read _

private theorem handsOut_loadNarrowed (operation : String) (change : Action Query Unit)
    (read : RowReader α) (s : QuerySet) :
    Moves HandsOut (s.loadNarrowed operation change read : Action (Session κ) (List α)) :=
  handsOut_bind (handsOut_withStore (s.narrowed_handsOut operation change)) fun _ =>
    handsOut_loadQuery read _

private theorem handsOut_insert (m : Model) (rows : List NamedRow) :
    Moves HandsOut (m.insert rows : Action (Session κ) Affected) := by
  unfold Model.insert
  split
  · exact handsOut_pure _
  · refine handsOut_bind handsOut_vendor fun v => handsOut_bind (handsOut_ofExcept _) fun text => ?_
    split
    · exact handsOut_execute _
    · exact handsOut_pure _

/-- No operation that is evaluated at once settles a type or keeps anything compiled. -/
theorem immediate_handsOut (op : Immediate α) (s : QuerySet) :
    Moves HandsOut (op.run s : Action (Session κ) α) := by
  have query (operation : String) :
      Moves HandsOut (s.buildingIn operation : Action (Session κ) Query) :=
    handsOut_ofExcept _
  cases op with
  | count =>
    refine handsOut_bind (query _) fun q => handsOut_bind (handsOut_statementFor _) fun _ =>
      handsOut_bind (handsOut_load _ _) fun rows => ?_
    split
    · exact handsOut_ofExcept _
    · exact handsOut_throw _
  | hasRows => exact handsOut_bind (handsOut_loadNarrowed _ _ _ s) fun _ => handsOut_pure _
  | get read =>
    refine handsOut_bind (handsOut_loadNarrowed _ _ read s) fun rows => ?_
    dsimp only
    split
    · exact handsOut_pure _
    · exact handsOut_throw _
    · exact handsOut_throw _
  | first read => exact handsOut_bind (handsOut_loadNarrowed _ _ read s) fun _ => handsOut_pure _
  | last read => exact handsOut_bind (handsOut_loadNarrowed _ _ read s) fun _ => handsOut_pure _
  | atIndex read index =>
    exact handsOut_bind (handsOut_loadNarrowed _ _ read s) fun _ => handsOut_pure _
  | all read => exact handsOut_bind (query _) fun q => handsOut_loadQuery read q
  | allAs read => exact handsOut_bind (query _) fun q => handsOut_loadQuery read q
  | iter read =>
    exact handsOut_bind (query _) fun q => handsOut_bind (handsOut_statementFor _) fun _ =>
      handsOut_bind (handsOut_fetch _) fun _ => handsOut_pure _
  | raw read statement => exact handsOut_bind (query _) fun _ => handsOut_load read statement
  | create row => exact handsOut_bind (query _) fun q => handsOut_insert q.model [row]
  | update assignments =>
    exact handsOut_bind (query _) fun q => handsOut_bind (handsOut_statementFor _) fun _ =>
      handsOut_execute _
  | delete =>
    exact handsOut_bind (query _) fun q => handsOut_bind (handsOut_statementFor _) fun _ =>
      handsOut_execute _

private theorem handsOut_sendNoted (statement : String) :
    Moves HandsOut (sendNoted statement : Action (Session κ) Unit) :=
  handsOut_bind (handsOut_note _ _) fun _ =>
    handsOut_bind (handsOut_execute statement) fun _ => handsOut_pure _

private theorem handsOut_stage (e : Execution) :
    Moves HandsOut (stage e : Action (Session κ) Unit) := by
  unfold stage
  cases e.setup with
  | none => exact handsOut_pure _
  | some setup =>
    refine handsOut_bind (handsOut_attempt (handsOut_sendNoted setup)) fun outcome => ?_
    cases outcome with
    | ok _ => exact handsOut_pure _
    | error failure =>
      refine handsOut_bind ?_ fun _ => handsOut_throw _
      cases e.cleanup with
      | none => exact handsOut_pure _
      | some cleanup =>
        refine handsOut_bind (handsOut_attempt (handsOut_execute cleanup)) fun outcome => ?_
        cases outcome with
        | ok _ => exact handsOut_pure _
        | error _ => exact handsOut_note _ _

omit [Connection κ] in
private theorem handsOut_ensurePrepared (h : Handle) (name : String)
    {prepare : Action (Session κ) Unit} (moves : Moves HandsOut prepare) :
    Moves HandsOut (ensurePrepared h name prepare) := by
  refine handsOut_bind (handsOut_same fun _ _ => rfl) fun s => ?_
  dsimp only
  split
  · exact handsOut_bind (handsOut_note _ _) fun _ => handsOut_pure _
  · refine handsOut_bind (handsOut_note _ _) fun _ => handsOut_bind moves fun _ => ?_
    exact handsOut_bind (handsOut_same fun _ _ => rfl) fun _ => handsOut_pure _

private theorem handsOut_runPrepared (read : RowReader α) (a : Artifact) (e : Execution) :
    Moves HandsOut (runPrepared read a e : Action (Session κ) _) := by
  refine handsOut_bind (handsOut_same fun _ _ => rfl) fun s => ?_
  refine handsOut_bind (handsOut_ensurePrepared _ _ (handsOut_sendNoted _)) fun _ => ?_
  refine handsOut_bind (handsOut_stage e) fun _ => handsOut_bind (handsOut_note _ _) fun _ => ?_
  exact handsOut_bind (handsOut_fetch _) fun _ => handsOut_pure _

/-- Nor does an execution. -/
theorem execute_handsOut (read : RowReader α) (arguments : Arguments) (s : QuerySet) :
    Moves HandsOut (s.execute read arguments : Action (Session κ) (List α)) := by
  have looked (a : Artifact) (e : Execution) :
      Moves HandsOut (QuerySet.streamed (κ := κ) read a e) := by
    refine handsOut_bind (handsOut_attempt (handsOut_runPrepared read a e)) fun outcome => ?_
    cases outcome <;> exact handsOut_pure _
  intro session j
  rw [QuerySet.exec_execute]
  cases s with
  | building q => exact session.store.handsOut_refl
  | prepared q c =>
    rw [QuerySet.exec_stream]
    cases q.params.cleanArguments session.store.types arguments with
    | error failure => exact session.store.handsOut_refl
    | ok cleaned =>
      simp only [Except.bind]
      cases Prepared.execution c.artifact.vendor c.artifact cleaned with
      | error failure => exact session.store.handsOut_refl
      | ok e =>
        have moved := looked c.artifact e session j
        simp only [Except.map]
        generalize (QuerySet.streamed read c.artifact e).exec session j = run at moved
        obtain ⟨⟨failure | items, session'⟩, j'⟩ := run
        · exact moved
        · exact moved

end Session

/-! ### Runs -/

/-- A query set of a query, which gets a cell of its own. -/
def QuerySet.given (q : Query) : Action Store QuerySet :=
  return building { q with memo := ← Store.freshMemo }

theorem QuerySet.builds_given (q : Query) (t : Store) (j : Journal) :
    t.Builds ((given q).exec t j) where
  store := .inr rfl
  fresh s answer := by
    cases answer
    exact ⟨rfl, _, rfl, rfl⟩

/-- The ways to a query set from those there are. -/
inductive Making (sets : List QuerySet) : Action Store QuerySet → Prop where
  /-- All rows of a model, or any other query. -/
  | given (q : Query) : Making sets (QuerySet.given q)
  | change (b : Builder) {s : QuerySet} (live : s ∈ sets) : Making sets (b.apply s)
  | intersect {s other : QuerySet} (live : s ∈ sets) (beside : other ∈ sets) :
    Making sets (QuerySet.intersect other s)
  | union {s other : QuerySet} (live : s ∈ sets) (beside : other ∈ sets) :
    Making sets (QuerySet.union other s)
  | prepare (v : Vendor) {s : QuerySet} (live : s ∈ sets) : Making sets (s.prepareFor v)

/-- What a program holds: the session that it talks to a database in, and query sets. -/
structure Program (κ : Type) where
  session : Session κ
  sets : List QuerySet

namespace Program

variable {κ : Type} {p p' : Program κ}

/-- What is left of a program without its connection. -/
def world (p : Program κ) : World :=
  ⟨p.session.store, p.sets⟩

def types (p : Program κ) : Types :=
  p.session.store.types

/-- The program with another store. -/
def withStore (p : Program κ) (store : Store) : Program κ :=
  { p with session := { p.session with store := store } }

/-- The program after an action on its store; a query set that came of it is held. -/
def after (p : Program κ) (run : Ran QuerySet) : Program κ :=
  { p.withStore run.1.2 with sets := run.1.1.toOption.toList ++ p.sets }

/-- One call of a program, whatever comes of it. -/
inductive Step [Connection κ] (p : Program κ) : Program κ → Prop where
  | make {a : Action Store QuerySet} (making : Making p.sets a) (j : Journal) :
    Step p (p.after (a.exec p.session.store j))
  | clone {s : QuerySet} (live : s ∈ p.sets) : Step p { p with sets := s :: p.sets }
  | compile (v : Vendor) {s : QuerySet} (live : s ∈ p.sets) (j : Journal) :
    Step p (p.withStore ((Store.compile v s.query).exec p.session.store j).1.2)
  /-- A caller says what type a parameter has, and whether it accepts NULL. -/
  | inferType (r : Param) (t : FieldType) :
    Step p (p.withStore { p.session.store with types := p.types.inferType r t })
  | inferNullable (r : Param) (nullable : Bool) :
    Step p (p.withStore { p.session.store with types := p.types.inferNullable r nullable })
  | immediate {α : Type} (op : Immediate α) {s : QuerySet} (live : s ∈ p.sets) (j : Journal) :
    Step p { p with session := ((op.run s).exec p.session j).1.2 }
  | execute {α : Type} (read : RowReader α) (arguments : Arguments) {s : QuerySet}
    (live : s ∈ p.sets) (j : Journal) :
    Step p { p with session := ((s.execute read arguments).exec p.session j).1.2 }
  /-- Something happens to the connection, to the pool or to handles, or the program
  turns to other ones. -/
  | elsewhere {session : Session κ} (same : session.store = p.session.store) :
    Step p { p with session := session }

/-- Any number of calls. -/
inductive Steps [Connection κ] (p : Program κ) : Program κ → Prop where
  | none : Steps p p
  | step {middle p' : Program κ} (before : Steps p middle) (next : Step middle p') : Steps p p'

/-- The program has come to be from one without query sets, by any number of calls. -/
def Reachable [Connection κ] (p : Program κ) : Prop :=
  ∃ session : Session κ, (∃ types, session.store = { types := types }) ∧ Steps ⟨session, []⟩ p

/-! ### What every run keeps -/

theorem does_of_making {settles : Types → Types → Prop} {w : World} {a : Action Store QuerySet}
    (making : Making w.sets a) (j : Journal) : w.Does settles (w.after (a.exec w.store j)) := by
  cases making with
  | given q => exact .build (QuerySet.builds_given q w.store j)
  | change b live => exact .build (QuerySet.builds_apply b _ w.store j)
  | intersect live beside => exact .build (QuerySet.builds_combine _ _ _ _ w.store j)
  | union live beside => exact .build (QuerySet.builds_combine _ _ _ _ w.store j)
  | prepare v live => exact .prepare v live j

private theorem does_of_handsOut {settles : Types → Types → Prop} {session : Session κ}
    (out : p.session.HandsOut session) :
    p.world.Does settles ({ p with session := session } : Program κ).world := by
  obtain ⟨n, same⟩ := out
  rw [world, world, same]
  exact .handOut n

variable [Connection κ]

theorem does_of_step (step : Step p p') : p.world.Does Types.Retains p'.world := by
  cases step with
  | make making j => exact does_of_making making j
  | clone live => exact .hold live
  | compile v live j => exact .compile v live j
  | inferType r t => exact .declare (p.types.retains_inferType r t)
  | inferNullable r nullable => exact .declare (p.types.retains_inferNullable r nullable)
  | immediate op live j => exact does_of_handsOut (Session.immediate_handsOut op _ p.session j)
  | execute read arguments live j =>
    exact does_of_handsOut (Session.execute_handsOut read arguments _ p.session j)
  | elsewhere same => exact does_of_handsOut ⟨0, same⟩

theorem step_lawful (lawful : p.world.Lawful) (step : Step p p') : p'.world.Lawful :=
  World.does_lawful (·.fieldType) lawful (does_of_step step)

theorem lawful_of_steps (lawful : p.world.Lawful) (steps : Steps p p') : p'.world.Lawful := by
  induction steps with
  | none => exact lawful
  | step _ next ih => exact step_lawful ih next

theorem lawful_of_reachable (reachable : Reachable p) : p.world.Lawful := by
  obtain ⟨session, ⟨types, fresh⟩, steps⟩ := reachable
  refine lawful_of_steps ?_ steps
  rw [world, fresh]
  exact World.lawful_start types

/-- No call changes what a cell holds. -/
theorem step_retains (step : Step p p') : p.types.Retains p'.types :=
  World.does_settles id (does_of_step step)

theorem steps_retain (steps : Steps p p') : p.types.Retains p'.types := by
  induction steps with
  | none => exact p.types.retains_refl
  | step _ next ih => exact Types.retains_trans ih (step_retains next)

/-- A query that compiles and that nothing is kept compiled for may be prepared next. -/
theorem prepared_of_compiled {v : Vendor} {q : Query} {a : Artifact} {types : Types} {j j' : Journal}
    (live : .building q ∈ p.sets) (empty : p.session.store.memos q.memo = none)
    (compiled : (Prepared.compile v q).exec p.types j = ((.ok a, types), j')) :
    ∃ p', Step p p' ∧ .prepared q ⟨p.session.store.nextSerial, a⟩ ∈ p'.sets ∧ p'.types = types ∧
      (∀ m, m ≠ q.memo → p'.session.store.memos m = p.session.store.memos m) ∧ p.sets ⊆ p'.sets := by
  have next : Step p (p.after _) := .make (.prepare v live) j
  rw [QuerySet.exec_prepareFor_compiled empty compiled] at next
  refine ⟨_, next, List.mem_cons_self, rfl, fun m other => if_neg other, ?_⟩
  exact List.subset_cons_self _ _

end Program

end PreparedSql
