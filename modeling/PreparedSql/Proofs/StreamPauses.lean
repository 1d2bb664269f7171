import Mathlib.Logic.Function.Iterate
import PreparedSql.Proofs.PoolExecution

/-! The rows of an execution come out of a stream, which pauses wherever it
waits for an answer and behind every row, and may be dropped at any pause. Here
it is cut into the steps from one pause to the next. From its start the steps lead
to the end, with the rows, the session and the journal that looking at the whole
stream gives. -/
namespace PreparedSql

open PreparedSql.Action

/-- Where the stream of an execution pauses. What the server answers to a statement
is looked at in the step behind the one that sends it. -/
inductive Pause where
  /-- Nobody has looked at the stream. -/
  | fresh
  /-- The PREPARE is on its way, on the connection with the handle. -/
  | preparing (h : Handle) (answers : List (Except Failure Answer))
  | prepared
  | staging (answers : List (Except Failure Answer))
  /-- The setup failed, and nothing is taken back yet. -/
  | refused (failure : Failure)
  | clearing (failure : Failure) (answers : List (Except Failure Answer))
  | staged
  | fetching (rows : List (Except Failure LabeledRow))
  | ended

/-- The PREPARE has been answered, or there was no need for one. -/
def Pause.isPrepared : Pause → Bool
  | .fresh | .preparing _ _ => false
  | _ => true

/-- A stream at a pause, with what has come of it so far. -/
structure Streaming (κ α : Type) where
  pause : Pause
  items : List (Except Failure α)
  session : Session κ
  journal : Journal

namespace Streaming

variable {κ : Type} [Connection κ] {α : Type} (read : RowReader α) (a : Artifact) (e : Execution)

/-- A stream that nobody has looked at. -/
def start (s : Session κ) (j : Journal) : Streaming κ α :=
  ⟨.fresh, [], s, j⟩

/-- Notes a line. -/
def noting (level : Level) (text : String) (t : Streaming κ α) : Streaming κ α :=
  { t with journal := t.journal ++ [⟨level, text⟩] }

/-- Sends a statement and waits for what it is answered with. -/
def sending (statement : String) (waits : List (Except Failure Answer) → Pause)
    (t : Streaming κ α) : Streaming κ α :=
  { t with
    pause := waits (Connection.run statement t.session.connection).1
    session := t.session.after statement }

/-- Ends with a failure of the execution. -/
def failing (failure : Failure) (t : Streaming κ α) : Streaming κ α :=
  { t with
    pause := .ended
    items := t.items ++ [.error (.during (.executing a.statement) failure)] }

/-- The step from a pause to the next one. -/
def advance (t : Streaming κ α) : Streaming κ α :=
  match t.pause with
  | .fresh =>
    let h := Connection.handle t.session.connection
    if t.session.pool.contains h a.name then
      { t.noting .debug (Pool.statementLine a.name "already prepared" h) with pause := .prepared }
    else
      ((t.noting .debug (Pool.statementLine a.name "not prepared" h)).noting .debug
        (Text.truncated a.statement)).sending a.statement (.preparing h)
  | .preparing h answers =>
    match Session.collect (Session.resultsOf answers) with
    | .ok _ =>
      let pool := t.session.pool.record t.session.handles h a.name
      { t with pause := .prepared, session := { t.session with pool := pool } }
    | .error failure => t.failing a failure
  | .prepared =>
    match e.setup with
    | none => { t with pause := .staged }
    | some setup => (t.noting .debug (Text.truncated setup)).sending setup .staging
  | .staging answers =>
    match Session.collect (Session.resultsOf answers) with
    | .ok _ => { t with pause := .staged }
    | .error failure => { t with pause := .refused failure }
  | .refused failure =>
    match e.cleanup with
    | none => t.failing a failure
    | some cleanup => t.sending cleanup (.clearing failure)
  | .clearing failure answers =>
    let lines := Session.cleanupLines (Session.collect (Session.resultsOf answers))
    { t with journal := t.journal ++ lines }.failing a failure
  | .staged =>
    (t.noting .debug (Text.truncated e.statement)).sending e.statement
      fun answers => .fetching (Session.rowsOf answers)
  | .fetching [] => { t with pause := .ended }
  | .fetching (row :: rest) =>
    match row >>= read with
    | .ok x => { t with pause := .fetching rest, items := t.items ++ [.ok x] }
    | .error failure => t.failing a failure
  | .ended => t

/-- The stream after a number of steps. -/
def after (n : Nat) (t : Streaming κ α) : Streaming κ α :=
  (advance read a e)^[n] t

/-- Some number of steps leads from one pause to another. -/
def Leads (t t' : Streaming κ α) : Prop :=
  ∃ n, t.after read a e n = t'

section
variable {read a e}

theorem leads_refl (t : Streaming κ α) : Leads read a e t t := ⟨0, rfl⟩

theorem leads_advance {t t' : Streaming κ α} (leads : Leads read a e (t.advance read a e) t') :
    Leads read a e t t' := by
  obtain ⟨n, reached⟩ := leads
  exact ⟨n + 1, reached⟩

/-- A stream that has ended stays as it is. -/
theorem after_ended {t : Streaming κ α} (ended : t.pause = .ended) (n : Nat) :
    t.after read a e n = t := by
  have still : t.advance read a e = t := by simp only [advance, ended]
  exact Function.iterate_fixed still n

/-- The rows come out one by one, up to the first failure. -/
theorem fetching_leads (rows : List (Except Failure LabeledRow)) (items : List (Except Failure α))
    (s : Session κ) (j : Journal) : Leads read a e ⟨.fetching rows, items, s, j⟩
      ⟨.ended, items ++ (Session.untilFailure (rows.map (· >>= read))).map
        (·.mapError (.during (.executing a.statement))), s, j⟩ := by
  induction rows generalizing items with
  | nil =>
    refine leads_advance ?_
    rw [List.map_nil, Session.untilFailure, List.map_nil, List.append_nil]
    exact leads_refl _
  | cons row rest ih =>
    refine leads_advance ?_
    rw [List.map_cons]
    cases answer : row >>= read with
    | ok x =>
      simp only [advance, answer, Session.untilFailure, List.map_cons]
      have others := ih (items ++ [.ok x])
      rwa [List.append_assoc] at others
    | error failure =>
      simp only [advance, answer]
      exact leads_refl _

/-- What is left of an execution once its statement is prepared. -/
private def launch (read : RowReader α) (e : Execution) :
    Action (Session κ) (List (Except Failure α)) := do
  Session.stage e
  Action.note .debug (Text.truncated e.statement)
  let rows ← Session.fetch e.statement
  return Session.untilFailure (rows.map (· >>= read))

/-- The end of a stream whose execution went like this. -/
def finished (a : Artifact)
    (run : (Except Failure (List (Except Failure α)) × Session κ) × Journal) : Streaming κ α :=
  ⟨.ended, match run.1.1 with
    | .ok items => items.map (·.mapError (.during (.executing a.statement)))
    | .error failure => [.error (.during (.executing a.statement) failure)], run.1.2, run.2⟩

/-- Once the arguments are staged, the statement is executed. -/
private theorem staged_leads (s : Session κ) (j : Journal) : Leads read a e ⟨.staged, [], s, j⟩
    ⟨.ended, (Session.untilFailure ((Session.rowsOf
      (Connection.run e.statement s.connection).1).map (· >>= read))).map
        (·.mapError (.during (.executing a.statement))), s.after e.statement,
      j ++ [⟨.debug, Text.truncated e.statement⟩]⟩ :=
  leads_advance (fetching_leads _ [] _ _)

private theorem prepared_leads (s : Session κ) (j : Journal) :
    Leads read a e ⟨.prepared, [], s, j⟩ (finished a ((launch read e).exec s j)) := by
  refine leads_advance ?_
  simp only [launch, exec_bind, Session.exec_stage, advance]
  cases e.setup with
  | none => exact staged_leads s j
  | some setup =>
    refine leads_advance ?_
    have answered : Session.collect (Session.resultsOf (Connection.run setup s.connection).1) =
        s.result setup := rfl
    simp only [noting, sending, advance, answered]
    cases s.result setup with
    | ok => exact staged_leads _ _
    | error failure =>
      refine leads_advance ?_
      simp only [advance]
      cases e.cleanup with
      | none => exact leads_refl _
      | some cleanup => exact leads_advance (leads_refl _)

variable (read a e) in
/-- The steps lead to what the whole execution comes to. -/
theorem start_leads (s : Session κ) (j : Journal) : Leads read a e (start s j)
    (finished a ((Session.runPrepared read a e).exec s j)) := by
  have opened : (Session.runPrepared read a e : Action (Session κ) _) = (do
      let h := Connection.handle (← get).connection
      let _ ← Session.ensurePrepared h a.name (Session.sendNoted a.statement)
      launch read e) := rfl
  refine leads_advance ?_
  rw [opened]
  simp only [exec_bind, exec_get, Session.ensurePrepared]
  by_cases known : s.pool.contains (Connection.handle s.connection) a.name
  · rw [Pool.exec_ensure_known known]
    simp only [start, advance, known, ↓reduceIte]
    exact prepared_leads s _
  · rw [Pool.exec_ensure_unknown known, Session.exec_sendNoted]
    simp only [start, advance, known, Bool.false_eq_true, ↓reduceIte]
    refine leads_advance ?_
    have answered : Session.collect (Session.resultsOf
        (Connection.run a.statement s.connection).1) = s.result a.statement := rfl
    simp only [noting, sending, advance, answered]
    cases s.result a.statement with
    | ok => exact prepared_leads _ _
    | error failure => exact leads_refl _

end

end Streaming

namespace QuerySet

variable {κ : Type} [Connection κ] {α : Type}

/-- What looking at all rows of a stream runs. -/
def streamed (read : RowReader α) (a : Artifact) (e : Execution) :
    Action (Session κ) (List (Except Failure α)) := do
  match ← (Session.runPrepared read a e).attempt with
  | .ok items => return items.map (·.mapError (.during (.executing a.statement)))
  | .error f => return [.error (.during (.executing a.statement) f)]

theorem exec_streamed (read : RowReader α) (a : Artifact) (e : Execution) (s : Session κ)
    (j : Journal) : (streamed read a e).exec s j =
      let t := Streaming.finished a ((Session.runPrepared read a e).exec s j)
      ((.ok t.items, t.session), t.journal) := by
  simp only [streamed, exec_bind, exec_attempt, Streaming.finished]
  generalize (Session.runPrepared read a e).exec s j = run
  obtain ⟨⟨failure | items, s'⟩, j'⟩ := run <;> rfl

/-- To look at the whole stream is to take enough steps. -/
theorem streamed_of_steps (read : RowReader α) (a : Artifact) (e : Execution) (s : Session κ)
    (j : Journal) : ∃ n, ∀ m, n ≤ m →
      let t := (Streaming.start s j).after read a e m
      t.pause = .ended ∧ (streamed read a e).exec s j = ((.ok t.items, t.session), t.journal) := by
  obtain ⟨n, reached⟩ := Streaming.start_leads read a e s j
  refine ⟨n, fun m enough => ?_⟩
  obtain ⟨k, rfl⟩ := Nat.exists_eq_add_of_le' enough
  have more : (Streaming.start s j).after read a e (k + n) =
      Streaming.finished a ((Session.runPrepared read a e).exec s j) := by
    unfold Streaming.after at reached ⊢
    rw [Function.iterate_add_apply, reached]
    exact Streaming.after_ended rfl k
  rw [more, exec_streamed]
  exact ⟨rfl, rfl⟩

/-- A stream is made without any look at the connection, once the arguments are
accepted. -/
theorem exec_stream (read : RowReader α) (arguments : Arguments) (q : Query) (c : Compiled)
    (s : Session κ) (j : Journal) : (stream read arguments (.prepared q c)).exec s j =
      (((q.params.cleanArguments s.store.types arguments).bind fun cleaned =>
        (Prepared.execution c.artifact.vendor c.artifact cleaned).map (streamed read c.artifact), s),
          j) := by
  simp only [stream, exec_bind, exec_get, exec_ofExcept]
  cases q.params.cleanArguments s.store.types arguments with
  | error failure => rfl
  | ok cleaned =>
    simp only [Except.bind]
    cases Prepared.execution c.artifact.vendor c.artifact cleaned with
    | error failure => rfl
    | ok e => rfl

end QuerySet

end PreparedSql
