import PreparedSql.Proofs.StreamPauses

/-! What an execution asks of the server, and when. However far its stream is
looked at, the requests are the first of a PREPARE where the pool does not know the
statement, a setup where arguments are staged, and the EXECUTE; behind a setup that
fails there is the cleanup instead. The pool notes a PREPARE that succeeded and
nothing else. -/
namespace PreparedSql

/-- What an execution asks of the server. -/
inductive Request where
  | prepare | setup | cleanup | execute
  deriving DecidableEq

namespace Request

/-- The statement of a request, where there is something to ask for. -/
def text? (a : Artifact) (e : Execution) : Request → Option String
  | prepare => some a.statement
  | setup => e.setup
  | cleanup => e.cleanup
  | execute => some e.statement

end Request

namespace Session

variable {κ : Type} [Connection κ]

/-- The pool has recorded that the statement is prepared on the connection. -/
def Knows (s : Session κ) (a : Artifact) : Prop :=
  s.pool.contains (Connection.handle s.connection) a.name

instance (s : Session κ) (a : Artifact) : Decidable (s.Knows a) :=
  inferInstanceAs (Decidable (_ = true))

/-- The PREPARE that is asked for, if any. -/
def asked (s : Session κ) (a : Artifact) : List Request :=
  if s.Knows a then [] else [.prepare]

/-- The statement is prepared once a PREPARE that is asked for is answered. -/
def Ready (s : Session κ) (a : Artifact) : Prop :=
  ¬ s.Knows a → s.Accepts a.statement

/-- The pool once the statement is prepared. -/
def recorded (s : Session κ) (a : Artifact) : Pool :=
  s.pool.record s.handles (Connection.handle s.connection) a.name

/-- The session once the statement is prepared. -/
def ready (s : Session κ) (a : Artifact) : Session κ :=
  if s.Knows a then s else { s.after a.statement with pool := s.recorded a }

/-- The session once the arguments are staged. -/
def withStaged (s : Session κ) (e : Execution) : Session κ :=
  match e.setup with
  | none => s
  | some setup => s.after setup

/-- The setup of the arguments succeeds, if there is any. -/
def Stages (s : Session κ) (e : Execution) : Prop :=
  ∀ setup ∈ e.setup, s.Accepts setup

end Session

/-- The setup of an execution, if there is one. -/
def Execution.staging (e : Execution) : List Request :=
  if e.setup.isSome then [.setup] else []

theorem Execution.staging_some {e : Execution} {setup : String} (staged : e.setup = some setup) :
    e.staging = [.setup] := by
  simp [staging, staged]

namespace Streaming

variable {κ : Type} [Connection κ] {α : Type} {read : RowReader α} {a : Artifact} {e : Execution}
  {s : Session κ}

/-- The item that a failing execution comes to. -/
def failed (a : Artifact) (failure : Failure) : List (Except Failure α) :=
  [.error (.during (.executing a.statement) failure)]

/-- What a stream that was first looked at in a session may have come to, with the
requests that were sent, one case for each pause and for each way to its end. -/
inductive Reached (a : Artifact) (e : Execution) (s : Session κ) :
    Streaming κ α → List Request → Prop where
  | fresh (j : Journal) : Reached a e s ⟨.fresh, [], s, j⟩ []
  | preparing (unknown : ¬ s.Knows a) (j : Journal) :
    Reached a e s ⟨.preparing (Connection.handle s.connection)
      (Connection.run a.statement s.connection).1, [], s.after a.statement, j⟩ [.prepare]
  | unprepared (unknown : ¬ s.Knows a) {failure : Failure}
    (refused : s.result a.statement = .error failure) (j : Journal) :
    Reached a e s ⟨.ended, failed a failure, s.after a.statement, j⟩ [.prepare]
  | prepared (answered : s.Ready a) (j : Journal) :
    Reached a e s ⟨.prepared, [], s.ready a, j⟩ (s.asked a)
  | staging (answered : s.Ready a) {setup : String} (staged : e.setup = some setup) (j : Journal) :
    Reached a e s ⟨.staging (Connection.run setup (s.ready a).connection).1, [],
      (s.ready a).after setup, j⟩ (s.asked a ++ [.setup])
  | refused (answered : s.Ready a) {setup : String} (staged : e.setup = some setup)
    {failure : Failure} (refused : (s.ready a).result setup = .error failure) (j : Journal) :
    Reached a e s ⟨.refused failure, [], (s.ready a).after setup, j⟩ (s.asked a ++ [.setup])
  | clearing (answered : s.Ready a) {setup cleanup : String} (staged : e.setup = some setup)
    (cleared : e.cleanup = some cleanup) {failure : Failure}
    (refused : (s.ready a).result setup = .error failure) (j : Journal) :
    Reached a e s ⟨.clearing failure
      (Connection.run cleanup ((s.ready a).after setup).connection).1, [],
      ((s.ready a).after setup).after cleanup, j⟩ (s.asked a ++ [.setup, .cleanup])
  | unstaged (answered : s.Ready a) {setup cleanup : String} (staged : e.setup = some setup)
    (cleared : e.cleanup = some cleanup) {failure : Failure}
    (refused : (s.ready a).result setup = .error failure) (j : Journal) :
    Reached a e s ⟨.ended, failed a failure, ((s.ready a).after setup).after cleanup, j⟩
      (s.asked a ++ [.setup, .cleanup])
  | staged (answered : s.Ready a) (stages : (s.ready a).Stages e) (j : Journal) :
    Reached a e s ⟨.staged, [], (s.ready a).withStaged e, j⟩ (s.asked a ++ e.staging)
  | executed (answered : s.Ready a) (stages : (s.ready a).Stages e) (pause : Pause)
    (behind : pause = .ended ∨ ∃ rows, pause = .fetching rows) (items : List (Except Failure α))
    (j : Journal) :
    Reached a e s ⟨pause, items, ((s.ready a).withStaged e).after e.statement, j⟩
      (s.asked a ++ (e.staging ++ [.execute]))

/-! ### One step behind every pause -/

section
variable (read)

/-- The first look asks for the PREPARE, unless the pool knows the statement. -/
theorem reached_looked (j : Journal) :
    Reached a e s (advance read a e (⟨.fresh, [], s, j⟩ : Streaming κ α)) (s.asked a) := by
  by_cases known : s.Knows a
  · have step : advance read a e (⟨.fresh, [], s, j⟩ : Streaming κ α) =
        ⟨.prepared, [], s.ready a, j ++ [⟨.debug, Pool.statementLine a.name "already prepared"
          (Connection.handle s.connection)⟩]⟩ := by
      rw [Session.ready, if_pos known]
      exact if_pos known
    rw [step]
    exact .prepared (absurd known) _
  · have step : advance read a e (⟨.fresh, [], s, j⟩ : Streaming κ α) =
        sending a.statement (.preparing (Connection.handle s.connection))
          ⟨.fresh, [], s, j ++ [⟨.debug, Pool.statementLine a.name "not prepared"
            (Connection.handle s.connection)⟩] ++ [⟨.debug, Text.truncated a.statement⟩]⟩ :=
      if_neg known
    rw [step, Session.asked, if_neg known]
    exact .preparing known _

/-- A PREPARE that is answered is recorded, or ends the stream. -/
theorem reached_answered (unknown : ¬ s.Knows a) (j : Journal) :
    Reached a e s (advance read a e (⟨.preparing (Connection.handle s.connection)
      (Connection.run a.statement s.connection).1, [], s.after a.statement, j⟩ : Streaming κ α))
      [.prepare] := by
  have answers : Session.collect (Session.resultsOf
      (Connection.run a.statement s.connection).1) = s.result a.statement := rfl
  simp only [advance, answers]
  cases outcome : s.result a.statement with
  | error failure => exact .unprepared unknown outcome j
  | ok results =>
    have accepted : s.Ready a := fun _ => Session.accepts_of_result outcome
    have asked : s.asked a = [.prepare] := if_neg unknown
    have reached := Reached.prepared (α := α) (e := e) accepted j
    rw [Session.ready, if_neg unknown, asked] at reached
    exact reached

/-- Behind a PREPARE the arguments are staged, if there is a setup. -/
theorem reached_setup (answered : s.Ready a) (j : Journal) :
    Reached a e s (advance read a e (⟨.prepared, [], s.ready a, j⟩ : Streaming κ α))
      (s.asked a ++ e.staging) := by
  cases staged : e.setup with
  | none =>
    have stages : (s.ready a).Stages e := by simp [Session.Stages, staged]
    have reached := Reached.staged (α := α) answered stages j
    rw [Session.withStaged, staged] at reached
    simp only [advance, staged]
    exact reached
  | some setup =>
    simp only [advance, staged, Execution.staging_some staged]
    exact .staging answered staged _

/-- A setup that is answered stages the arguments, or is refused. -/
theorem reached_staged (answered : s.Ready a) {setup : String} (staged : e.setup = some setup)
    (j : Journal) :
    Reached a e s (advance read a e (⟨.staging (Connection.run setup (s.ready a).connection).1, [],
      (s.ready a).after setup, j⟩ : Streaming κ α)) (s.asked a ++ [.setup]) := by
  have answers : Session.collect (Session.resultsOf
      (Connection.run setup (s.ready a).connection).1) = (s.ready a).result setup := rfl
  simp only [advance, answers]
  cases outcome : (s.ready a).result setup with
  | error failure => exact .refused answered staged outcome j
  | ok results =>
    have stages : (s.ready a).Stages e := by
      simpa [Session.Stages, staged] using Session.accepts_of_result outcome
    have reached := Reached.staged (α := α) answered stages j
    rw [Session.withStaged, staged, Execution.staging_some staged] at reached
    exact reached

/-- Rows are passed on until one cannot be read or there are no more; nothing is sent. -/
theorem reached_passed (answered : s.Ready a) (stages : (s.ready a).Stages e) {pause : Pause}
    (behind : pause = .ended ∨ ∃ rows, pause = .fetching rows) (items : List (Except Failure α))
    (j : Journal) :
    Reached a e s
      (advance read a e ⟨pause, items, ((s.ready a).withStaged e).after e.statement, j⟩)
      (s.asked a ++ (e.staging ++ [.execute])) := by
  obtain rfl | ⟨rows, rfl⟩ := behind
  · exact .executed answered stages _ (.inl rfl) items j
  · cases rows with
    | nil => exact .executed answered stages _ (.inl rfl) items j
    | cons row rest =>
      simp only [advance]
      cases row >>= read with
      | ok x => exact .executed answered stages _ (.inr ⟨rest, rfl⟩) _ j
      | error failure => exact .executed answered stages _ (.inl rfl) _ j

/-- A step sends no request, or the next one. -/
theorem reached_advance {t : Streaming κ α} {requests : List Request}
    (paired : e.cleanup.isSome = e.setup.isSome) (reached : Reached a e s t requests) :
    ∃ more, Reached a e s (t.advance read a e) (requests ++ more) := by
  cases reached with
  | fresh j => exact ⟨s.asked a, reached_looked read j⟩
  | preparing unknown j => exact ⟨[], reached_answered read unknown j⟩
  | prepared answered j => exact ⟨e.staging, reached_setup read answered j⟩
  | staging answered staged j =>
    exact ⟨[], by rw [List.append_nil]; exact reached_staged read answered staged j⟩
  | refused answered staged refused j =>
    cases cleared : e.cleanup with
    | none => simp [cleared, staged] at paired
    | some cleanup =>
      refine ⟨[.cleanup], ?_⟩
      simp only [advance, cleared, List.append_assoc]
      exact .clearing answered staged cleared refused j
  | clearing answered staged cleared refused j =>
    exact ⟨[], by rw [List.append_nil]; exact .unstaged answered staged cleared refused _⟩
  | staged answered stages j =>
    refine ⟨[.execute], ?_⟩
    rw [List.append_assoc]
    exact .executed answered stages _ (.inr ⟨_, rfl⟩) [] _
  | executed answered stages pause behind items j =>
    exact ⟨[], by rw [List.append_nil]; exact reached_passed read answered stages behind items j⟩
  -- An ended stream stays as it is.
  | unprepared unknown refused j => exact ⟨[], .unprepared unknown refused j⟩
  | unstaged answered staged cleared refused j =>
    exact ⟨[], by rw [List.append_nil]; exact .unstaged answered staged cleared refused j⟩

/-- After any number of steps the stream has come to a pause of the protocol. -/
theorem reached_after (paired : e.cleanup.isSome = e.setup.isSome) (j : Journal) (n : Nat) :
    ∃ requests, Reached a e s ((start s j : Streaming κ α).after read a e n) requests := by
  induction n with
  | zero => exact ⟨[], .fresh j⟩
  | succ n ih =>
    obtain ⟨requests, reached⟩ := ih
    obtain ⟨more, next⟩ := reached_advance read paired reached
    refine ⟨requests ++ more, ?_⟩
    rwa [Streaming.after, Function.iterate_succ_apply']

end

end Streaming

/-- The arguments of an execution are taken back where they are staged. -/
theorem Prepared.execution_paired {v : Vendor} {a : Artifact} {cleaned : CleanedArguments}
    {e : Execution} (executes : execution v a cleaned = .ok e) :
    e.cleanup.isSome = e.setup.isSome := by
  obtain ⟨arguments, _, rest⟩ := Outcome.bind_ok.mp executes
  obtain ⟨literals, written, answer⟩ := Outcome.bind_ok.mp rest
  cases answer
  have length := (Outcome.mapM_ok written).1
  cases v with
  | postgres => rfl
  | mysql => cases arguments <;> cases literals <;> first | rfl | cases length

/-- The protocol of one execution, first looked at in a session: what it has come to
at a pause of its stream, with the requests that were sent. -/
structure Protocol {κ : Type} [Connection κ] [Recording κ] {α : Type} (a : Artifact)
    (e : Execution) (s : Session κ) (t : Streaming κ α) (requests : List Request) : Prop where
  sent : Recording.sent t.session.connection =
    Recording.sent s.connection ++ requests.filterMap (·.text? a e)
  /-- The requests are the first of those of an execution, or of one whose setup fails. -/
  order : requests.IsPrefix (s.asked a ++ (e.staging ++ [.execute])) ∨
    ¬ (s.ready a).Stages e ∧ requests.IsPrefix (s.asked a ++ [.setup, .cleanup])
  /-- Nothing is sent before the stream is looked at; then a PREPARE is, exactly where
  the pool does not know the statement. -/
  prepares : .prepare ∈ requests ↔ t.pause ≠ .fresh ∧ ¬ s.Knows a
  /-- The statement is executed behind a PREPARE and a setup that succeeded. -/
  executes : .execute ∈ requests → s.Ready a ∧ (s.ready a).Stages e
  /-- A PREPARE that succeeded is recorded, as soon as it is answered. -/
  recorded : .prepare ∈ requests → t.pause.isPrepared → s.Accepts a.statement →
    t.session.pool = s.recorded a
  /-- Nothing else changes the pool. -/
  unrecorded : (.prepare ∈ requests → t.pause.isPrepared → ¬ s.Accepts a.statement) →
    t.session.pool = s.pool
  /-- So the name is known exactly where it was known or its PREPARE has succeeded. -/
  known : t.session.pool.contains (Connection.handle s.connection) a.name ↔
    s.Knows a ∨ .prepare ∈ requests ∧ t.pause.isPrepared ∧ s.Accepts a.statement
  /-- A PREPARE that fails ends the stream with its failure. -/
  unprepared : ∀ failure, ¬ s.Knows a → s.result a.statement = .error failure →
    t.pause = .ended → requests = [.prepare] ∧ t.items = Streaming.failed a failure
  /-- A setup that fails ends the stream with its failure, behind the cleanup, whatever
  the cleanup is answered with. -/
  unstaged : ∀ setup failure, s.Ready a → e.setup = some setup →
    (s.ready a).result setup = .error failure → t.pause = .ended →
    requests = s.asked a ++ [.setup, .cleanup] ∧ t.items = Streaming.failed a failure
  /-- Otherwise the stream does not end before the statement is executed. -/
  executed : s.Ready a → (s.ready a).Stages e → t.pause = .ended →
    requests = s.asked a ++ (e.staging ++ [.execute])

/-! ### The protocol at every pause -/

namespace Session

variable {κ : Type} [Connection κ] {a : Artifact} {e : Execution} {s : Session κ}

@[simp] theorem mem_asked {r : Request} : r ∈ s.asked a ↔ r = .prepare ∧ ¬ s.Knows a := by
  unfold asked
  split <;> simp [*]

theorem not_stages {setup : String} {failure : Failure} (staged : e.setup = some setup)
    (refused : s.result setup = .error failure) : ¬ s.Stages e :=
  fun stages => not_accepts refused (stages setup staged)

/-- The pool once the statement is prepared. -/
theorem pool_ready : (s.ready a).pool = if s.Knows a then s.pool else s.recorded a := by
  unfold ready
  split <;> rfl

theorem pool_staged : (s.withStaged e).pool = s.pool := by
  unfold withStaged
  split <;> rfl

variable [Recording κ]

theorem sent_ready : Recording.sent (s.ready a).connection =
    Recording.sent s.connection ++ (s.asked a).filterMap (·.text? a e) := by
  unfold ready asked
  split
  · exact (List.append_nil _).symm
  · exact Recording.sent_run _ _

theorem sent_staged : Recording.sent (s.withStaged e).connection =
    Recording.sent s.connection ++ e.staging.filterMap (·.text? a e) := by
  unfold withStaged Execution.staging
  cases staged : e.setup with
  | none => exact (List.append_nil _).symm
  | some setup => simpa [Request.text?, staged] using (sends_after s setup).sent

end Session

@[simp] theorem Execution.mem_staging {e : Execution} {r : Request} :
    r ∈ e.staging ↔ r = .setup ∧ e.setup.isSome := by
  unfold staging
  split <;> simp [*]

namespace Streaming

variable {κ : Type} [Connection κ] {α : Type} {a : Artifact} {e : Execution} {s : Session κ}
  {t : Streaming κ α} {requests : List Request}

theorem reached_sent [Recording κ] (reached : Reached a e s t requests) :
    Recording.sent t.session.connection =
      Recording.sent s.connection ++ requests.filterMap (·.text? a e) := by
  have ready := Session.sent_ready (a := a) (e := e) (s := s)
  cases reached with
  | fresh => exact (List.append_nil _).symm
  | preparing | unprepared => exact Recording.sent_run _ _
  | prepared => exact ready
  | staging _ staged | refused _ staged =>
    simp [Session.after, Recording.sent_run, ready, Request.text?, staged]
  | clearing _ staged cleared | unstaged _ staged cleared =>
    simp [Session.after, Recording.sent_run, ready, Request.text?, staged, cleared]
  | staged => rw [Session.sent_staged, ready, List.filterMap_append, List.append_assoc]
  | executed =>
    simp [Session.after, Recording.sent_run, Session.sent_staged (a := a), ready, Request.text?]

theorem reached_order (reached : Reached a e s t requests) :
    requests.IsPrefix (s.asked a ++ (e.staging ++ [.execute])) ∨
      ¬ (s.ready a).Stages e ∧ requests.IsPrefix (s.asked a ++ [.setup, .cleanup]) := by
  cases reached with
  | fresh => exact .inl List.nil_prefix
  | preparing unknown | unprepared unknown =>
    have asked : s.asked a = [.prepare] := if_neg unknown
    exact .inl (asked ▸ List.prefix_append _ _)
  | prepared => exact .inl (List.prefix_append _ _)
  | staging _ staged | refused _ staged =>
    exact .inl (by rw [Execution.staging_some staged]; exact ⟨[.execute], by simp⟩)
  | clearing _ staged _ refused | unstaged _ staged _ refused =>
    exact .inr ⟨Session.not_stages staged refused, List.prefix_rfl⟩
  | staged => exact .inl ⟨[.execute], by simp⟩
  | executed => exact .inl List.prefix_rfl

theorem reached_prepares (reached : Reached a e s t requests) :
    .prepare ∈ requests ↔ t.pause ≠ .fresh ∧ ¬ s.Knows a := by
  cases reached with
  | executed _ _ pause behind =>
    have looked : pause ≠ .fresh := by
      rintro rfl
      simp at behind
    simp [looked]
  | _ => simp_all

theorem reached_executes (reached : Reached a e s t requests) (executed : .execute ∈ requests) :
    s.Ready a ∧ (s.ready a).Stages e := by
  cases reached with
  | executed answered stages => exact ⟨answered, stages⟩
  | _ => simp at executed

/-- The pool is that of the start until the statement is prepared. -/
theorem reached_pool (reached : Reached a e s t requests) :
    (t.pause.isPrepared → s.Ready a → t.session.pool = (s.ready a).pool) ∧
      (¬ (t.pause.isPrepared ∧ s.Ready a) → t.session.pool = s.pool) := by
  cases reached with
  | fresh | preparing => exact ⟨fun early => Bool.noConfusion early, fun _ => rfl⟩
  | unprepared unknown refused =>
    exact ⟨fun _ answered => absurd (answered unknown) (Session.not_accepts refused), fun _ => rfl⟩
  | prepared answered | staging answered | refused answered | clearing answered
    | unstaged answered => exact ⟨fun _ _ => rfl, fun not => absurd ⟨rfl, answered⟩ not⟩
  | staged answered =>
    exact ⟨fun _ _ => Session.pool_staged, fun not => absurd ⟨rfl, answered⟩ not⟩
  | executed answered _ pause behind =>
    have late : pause.isPrepared := by
      obtain rfl | ⟨rows, rfl⟩ := behind <;> rfl
    exact ⟨fun _ _ => Session.pool_staged, fun not => absurd ⟨late, answered⟩ not⟩

theorem reached_recorded (reached : Reached a e s t requests) (asked : .prepare ∈ requests)
    (late : t.pause.isPrepared) (accepted : s.Accepts a.statement) :
    t.session.pool = s.recorded a := by
  obtain ⟨_, unknown⟩ := (reached_prepares reached).mp asked
  rw [(reached_pool reached).1 late fun _ => accepted, Session.pool_ready, if_neg unknown]

theorem reached_unrecorded (reached : Reached a e s t requests)
    (refused : .prepare ∈ requests → t.pause.isPrepared → ¬ s.Accepts a.statement) :
    t.session.pool = s.pool := by
  by_cases answered : t.pause.isPrepared ∧ s.Ready a
  · obtain ⟨late, ready⟩ := answered
    rw [(reached_pool reached).1 late ready, Session.pool_ready]
    split
    · rfl
    · next unknown =>
      have looked : t.pause ≠ .fresh := by
        intro fresh
        rw [fresh] at late
        cases late
      have asked := (reached_prepares reached).mpr ⟨looked, unknown⟩
      exact absurd (ready unknown) (refused asked late)
  · exact (reached_pool reached).2 answered

theorem reached_known (reached : Reached a e s t requests) :
    t.session.pool.contains (Connection.handle s.connection) a.name ↔
      s.Knows a ∨ .prepare ∈ requests ∧ t.pause.isPrepared ∧ s.Accepts a.statement := by
  by_cases prepared : .prepare ∈ requests ∧ t.pause.isPrepared ∧ s.Accepts a.statement
  · obtain ⟨asked, late, accepted⟩ := prepared
    rw [reached_recorded reached asked late accepted, Session.recorded, Pool.contains_record_self]
    simp [asked, late, accepted]
  · rw [reached_unrecorded reached fun asked late accepted => prepared ⟨asked, late, accepted⟩]
    simp [prepared, Session.Knows]

theorem reached_unprepared (reached : Reached a e s t requests) {failure : Failure}
    (unknown : ¬ s.Knows a) (refused : s.result a.statement = .error failure)
    (ended : t.pause = .ended) : requests = [.prepare] ∧ t.items = failed a failure := by
  have unanswered : ¬ s.Ready a := fun answered => Session.not_accepts refused (answered unknown)
  cases reached with
  | unprepared _ refused' =>
    rw [refused] at refused'
    cases refused'
    exact ⟨rfl, rfl⟩
  | unstaged answered | executed answered => exact absurd answered unanswered
  | _ => cases ended

theorem reached_unstaged (reached : Reached a e s t requests) {setup : String} {failure : Failure}
    (answered : s.Ready a) (staged : e.setup = some setup)
    (refused : (s.ready a).result setup = .error failure) (ended : t.pause = .ended) :
    requests = s.asked a ++ [.setup, .cleanup] ∧ t.items = failed a failure := by
  cases reached with
  | unprepared unknown refused => exact absurd (answered unknown) (Session.not_accepts refused)
  | unstaged _ staged' _ refused' =>
    rw [staged] at staged'
    cases staged'
    rw [refused] at refused'
    cases refused'
    exact ⟨rfl, rfl⟩
  | executed _ stages => exact absurd stages (Session.not_stages staged refused)
  | _ => cases ended

theorem reached_executed (reached : Reached a e s t requests) (answered : s.Ready a)
    (stages : (s.ready a).Stages e) (ended : t.pause = .ended) :
    requests = s.asked a ++ (e.staging ++ [.execute]) := by
  cases reached with
  | unprepared unknown refused => exact absurd (answered unknown) (Session.not_accepts refused)
  | unstaged _ staged _ refused => exact absurd stages (Session.not_stages staged refused)
  | executed => rfl
  | _ => cases ended

/-- The protocol is kept at every pause. -/
theorem keepsProtocol [Recording κ] (reached : Reached a e s t requests) :
    Protocol a e s t requests where
  sent := reached_sent reached
  order := reached_order reached
  prepares := reached_prepares reached
  executes := reached_executes reached
  recorded := reached_recorded reached
  unrecorded := reached_unrecorded reached
  known := reached_known reached
  unprepared _ := reached_unprepared reached
  unstaged _ _ := reached_unstaged reached
  executed := reached_executed reached

end Streaming

/-- An action that looks at the whole stream of an execution, from whatever session:
it does what the steps from pause to pause do, which keep the protocol. -/
structure FollowsProtocol {κ : Type} [Connection κ] [Recording κ] {α : Type} (read : RowReader α)
    (a : Artifact) (e : Execution) (look : Action (Session κ) (List (Except Failure α))) :
    Prop where
  pauses : ∀ (s : Session κ) (j : Journal) (n : Nat), ∃ requests,
    Protocol a e s ((Streaming.start s j).after read a e n) requests
  whole : ∀ (s : Session κ) (j : Journal), ∃ n, ∀ m, n ≤ m →
    let t := (Streaming.start s j).after read a e m
    t.pause = .ended ∧ look.exec s j = ((.ok t.items, t.session), t.journal)

namespace QuerySet

variable {κ : Type} [Connection κ] {α : Type}

/-- To execute a query set is to look at its whole stream and to collect the items. -/
theorem exec_execute (read : RowReader α) (arguments : Arguments) (set : QuerySet) (s : Session κ)
    (j : Journal) : (set.execute read arguments).exec s j =
      match (set.stream read arguments).exec s j with
      | ((.error failure, s'), j') => ((.error failure, s'), j')
      | ((.ok look, s'), j') =>
        match look.exec s' j' with
        | ((.error failure, s''), j'') => ((.error failure, s''), j'')
        | ((.ok items, s''), j'') => ((Session.collect items, s''), j'') := by
  simp only [execute, Action.exec_bind, Action.exec_ofExcept]
  rcases (set.stream read arguments).exec s j with ⟨⟨failure | look, s'⟩, j'⟩
  · rfl
  · simp only
    rcases look.exec s' j' with ⟨⟨failure | items, s''⟩, j''⟩ <;> rfl

/-- What is streamed follows the protocol. -/
theorem streamed_followsProtocol [Recording κ] (read : RowReader α) (a : Artifact) {e : Execution}
    (paired : e.cleanup.isSome = e.setup.isSome) :
    FollowsProtocol (κ := κ) read a e (streamed read a e) where
  pauses s j n := by
    obtain ⟨requests, reached⟩ := Streaming.reached_after (a := a) (s := s) read paired j n
    exact ⟨requests, Streaming.keepsProtocol reached⟩
  whole := streamed_of_steps read a e

/-- Why a query set has no stream. -/
inductive Unstreamed (types : Types) (arguments : Arguments) : QuerySet → Failure → Prop where
  | building (q : Query) : Unstreamed types arguments (.building q) .queryNotPrepared
  | rejected {q : Query} {c : Compiled} {failure : Failure}
    (rejected : q.params.cleanArguments types arguments = .error failure) :
    Unstreamed types arguments (.prepared q c) failure
  /-- The arguments are fine, but there is no statement that executes with them. -/
  | unwritten {q : Query} {c : Compiled} {cleaned : CleanedArguments} {failure : Failure}
    (accepted : q.params.cleanArguments types arguments = .ok cleaned)
    (unwritten : Prepared.execution c.artifact.vendor c.artifact cleaned = .error failure) :
    Unstreamed types arguments (.prepared q c) failure

/-- The stream of a prepared query set keeps the protocol, from whatever session it
is first looked at and however far. To make it sends nothing and changes nothing. There is
none when the query set is still being built, when its arguments are rejected and when they
cannot be handed over, and then that is all. Executing the query set is collecting what the
whole stream comes to. -/
theorem stream_keepsProtocol [Recording κ] (read : RowReader α) (arguments : Arguments)
    (set : QuerySet) (s : Session κ) (j : Journal) :
    match (set.stream read arguments).exec s j with
    | ((.error failure, s'), j') => s' = s ∧ j' = j ∧
      Unstreamed s.store.types arguments set failure ∧
      (set.execute read arguments).exec s j = ((.error failure, s), j)
    | ((.ok look, s'), j') => s' = s ∧ j' = j ∧
      ∃ q c cleaned e, set = .prepared q c ∧
        q.params.cleanArguments s.store.types arguments = .ok cleaned ∧
        Prepared.execution c.artifact.vendor c.artifact cleaned = .ok e ∧
        FollowsProtocol read c.artifact e look ∧
        ∃ n, let t := (Streaming.start s j).after read c.artifact e n
          t.pause = .ended ∧ (set.execute read arguments).exec s j =
            ((Session.collect t.items, t.session), t.journal) := by
  rw [exec_execute]
  cases set with
  | building q => exact ⟨rfl, rfl, .building q, rfl⟩
  | prepared q c =>
    rw [exec_stream]
    cases accepted : q.params.cleanArguments s.store.types arguments with
    | error failure => exact ⟨rfl, rfl, .rejected accepted, rfl⟩
    | ok cleaned =>
      simp only [Except.bind]
      cases executes : Prepared.execution c.artifact.vendor c.artifact cleaned with
      | error failure => exact ⟨rfl, rfl, .unwritten accepted executes, rfl⟩
      | ok e =>
        have follows : FollowsProtocol (κ := κ) read c.artifact e (streamed read c.artifact e) :=
          streamed_followsProtocol read c.artifact (Prepared.execution_paired executes)
        obtain ⟨n, whole⟩ := follows.whole s j
        obtain ⟨ended, looked⟩ := whole n (Nat.le_refl n)
        refine ⟨rfl, rfl, q, c, cleaned, e, rfl, accepted, executes, follows, n, ended, ?_⟩
        simp only [Except.map, looked]

-- On a server that sets no variables the cleanup fails as well; the failure of the setup stays.
example :
    let s : Session Canned := { connection := { handle := ⟨1⟩, failOn := some "SET" } }
    let a : Artifact := ⟨.mysql, "q", "?", "PREPARE q FROM '?';", [], [], [], [], []⟩
    let e : Execution := ⟨some "SET @p0 = 7;", some "SET @p0 = NULL;", "EXECUTE q USING @p0;", []⟩
    let t := (Streaming.start s []).after LabeledRow.whole a e 8
    t.session.connection.sent = ["PREPARE q FROM '?';", "SET @p0 = 7;", "SET @p0 = NULL;"] ∧
      t.items = Streaming.failed a (.reported "Mock failure on `SET @p0 = 7;`") :=
  ⟨rfl, rfl⟩

end QuerySet

end PreparedSql
