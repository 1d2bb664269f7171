import PreparedSql.Proofs.ActionRuns
import PreparedSql.Proofs.PoolTraffic
import PreparedSql.Session.Canned
import PreparedSql.Session.Execution

/-! An execution of a prepared statement takes the steps of the traffic on a
shared pool: it looks its name up, prepares the statement where the pool does
not know it, records the name, stages its arguments and executes. What is sent
over the connection meanwhile are the events of these steps. -/
namespace PreparedSql

open PreparedSql.Action PreparedSql.History PreparedSql.Traffic

/-- The phase after an action that leads to a phase unless it fails. -/
def Phase.settled {α : Type} (reached : Phase) : Except Failure α → Phase
  | .ok _ => reached
  | .error _ => .idle

namespace Pool

section
variable {σ : Type} {look : σ → Pool × Handles} {put : Pool → σ → σ} {h : Handle} {name : String}
  {prepare : Action σ Unit} {s : σ}

theorem exec_ensure_known (known : (look s).1.contains h name) (j : Journal) :
    (ensure look put h name prepare).exec s j =
      ((.ok false, s), j ++ [⟨.debug, statementLine name "already prepared" h⟩]) := by
  simp only [ensure, exec_bind, exec_get, known, ↓reduceIte, exec_note, exec_pure]

theorem exec_ensure_unknown (unknown : ¬ (look s).1.contains h name) (j : Journal) :
    (ensure look put h name prepare).exec s j =
      match prepare.exec s (j ++ [⟨.debug, statementLine name "not prepared" h⟩]) with
      | ((.ok _, s'), j') =>
        ((.ok true, put ((look s').1.record (look s').2 h name) s'), j')
      | ((.error failure, s'), j') => ((.error failure, s'), j') := by
  simp only [ensure, exec_bind, exec_get, unknown, Bool.false_eq_true, ↓reduceIte, exec_note,
    exec_pure]
  generalize prepare.exec s _ = answer
  rcases answer with ⟨⟨failure | _, s'⟩, j'⟩
  · rfl
  · simp only [exec_modify]

end

/-- To make sure that a name is prepared takes steps of the traffic, whatever
steps others take while the answer to the PREPARE is awaited. -/
theorem ensure_steps {σ : Type} {look : σ → Pool × Handles} {put : Pool → σ → σ} {h : Handle}
    {name : String} {prepare : Action σ Unit} (Sees : σ → Traffic → Prop)
    (looks : ∀ s t, Sees s t → look s = (t.pool, t.handles))
    (turns : ∀ s t phase, Sees s t → Sees s (t.turn h phase))
    (puts : ∀ s t pool, Sees s t → Sees (put pool s) { t with pool := pool })
    {s : σ} {t : Traffic} (sharing : look s = (t.pool, t.handles)) (idle : t.phase h = some .idle)
    (hit : t.pool.contains h name → Sees s t)
    (awaited : ¬ t.pool.contains h name → ∀ j, ∃ t', Steps (t.turn h (some (.missing name))) t' ∧
      Sees (prepare.exec s j).1.2 t' ∧
      t'.phase h = some (.settled (.unrecorded name) (prepare.exec s j).1.1)) (j : Journal) :
    ∃ t', Steps t t' ∧ Sees ((ensure look put h name prepare).exec s j).1.2 t' ∧
      t'.phase h =
        some (.settled (.ready name) ((ensure look put h name prepare).exec s j).1.1) := by
  have pool : (look s).1 = t.pool := congrArg Prod.fst sharing
  have begin {p : Phase} (next : Advance t.pool h .idle p []) : Steps t (t.turn h (some p)) := by
    have step := Step.advance idle next
    rw [remember, List.append_nil] at step
    exact .step .none step
  by_cases known : (look s).1.contains h name
  · rw [exec_ensure_known known]
    rw [pool] at known
    exact ⟨_, begin (.hit known), turns s t _ (hit known), by simp [Phase.settled]⟩
  · rw [exec_ensure_unknown known]
    rw [pool] at known
    obtain ⟨t', waited, seen, settled⟩ :=
      awaited known (j ++ [⟨.debug, statementLine name "not prepared" h⟩])
    have sent := steps_trans (begin (.miss known)) waited
    generalize prepare.exec s _ = answer at seen settled ⊢
    rcases answer with ⟨⟨failure | _, s'⟩, j'⟩
    · exact ⟨t', sent, seen, settled⟩
    · refine ⟨_, .step sent (.record settled), ?_, by simp [Phase.settled]⟩
      simp only [looks s' t' seen]
      exact turns _ _ _ (puts s' t' _ seen)

/-- To close a connection is to forget it. -/
theorem exec_close (p : Pool) (h : Handle) (j : Journal) :
    ∃ j', (close h).exec p j = ((.ok (), p.forget h), j') := by
  simp only [close, exec_bind, exec_get]
  cases known : p.names? h with
  | some names =>
    simp only [exec_bind, exec_modify, exec_note]
    exact ⟨_, rfl⟩
  | none =>
    rw [names?, Option.map_eq_none_iff, List.find?_eq_none] at known
    have nothing : p.forget h = p := by
      have all : (p.entries.filter fun e => e.1 != h) = p.entries :=
        List.filter_eq_self.mpr fun e member => by simpa using known e member
      exact congrArg Pool.mk all
    exact ⟨j, by rw [nothing, exec_pure]⟩

end Pool

/-- A connection that stays itself and keeps what was sent over it. -/
class Recording (κ : Type) [Connection κ] where
  sent : κ → List String
  handle_run (statement : String) (c : κ) :
    Connection.handle (Connection.run statement c).2 = Connection.handle c
  sent_run (statement : String) (c : κ) :
    sent (Connection.run statement c).2 = sent c ++ [statement]

instance : Recording Canned where
  sent c := c.sent
  handle_run _ _ := rfl
  sent_run _ _ := rfl

private theorem run_scripted (statement : String) (c : Scripted) :
    (Connection.run statement c).2.handle = c.handle ∧
      (Connection.run statement c).2.sent = c.sent ++ [statement] := by
  simp only [Connection.run]
  by_cases takes : Scripted.takesReply statement
  · rw [if_pos takes]
    cases c.replies <;> exact ⟨rfl, rfl⟩
  · rw [if_neg takes]
    exact ⟨rfl, rfl⟩

instance : Recording Scripted where
  sent c := c.sent
  handle_run statement c := (run_scripted statement c).1
  sent_run statement c := (run_scripted statement c).2

namespace Session

variable {κ : Type} [Connection κ]

/-- The session after a statement is sent. -/
def after (statement : String) (s : Session κ) : Session κ :=
  { s with connection := (Connection.run statement s.connection).2 }

/-- The results that a statement is answered with, or the failure among them. -/
def result (statement : String) (s : Session κ) : Except Failure (List Affected) :=
  collect (resultsOf (Connection.run statement s.connection).1)

/-- The statement is answered without a failure. -/
def Accepts (s : Session κ) (statement : String) : Prop :=
  (collect (resultsOf (Connection.run statement s.connection).1)).isOk

theorem accepts_of_result {s : Session κ} {statement : String} {results : List Affected}
    (answered : s.result statement = .ok results) : s.Accepts statement := by
  have outcome : s.Accepts statement = (s.result statement).isOk := rfl
  rw [outcome, answered]
  rfl

theorem not_accepts {s : Session κ} {statement : String} {failure : Failure}
    (refused : s.result statement = .error failure) : ¬ s.Accepts statement := by
  have outcome : s.Accepts statement = (s.result statement).isOk := rfl
  rw [outcome, refused]
  exact Bool.false_ne_true

theorem exec_fetch (statement : String) (s : Session κ) (j : Journal) :
    (fetch statement).exec s j =
      ((.ok (rowsOf (Connection.run statement s.connection).1), s.after statement), j) := rfl

theorem exec_execute (statement : String) (s : Session κ) (j : Journal) :
    (execute statement).exec s j =
      (((s.result statement).map Affected.sum, s.after statement), j) := by
  have ran : (run statement).exec s j =
      ((.ok (Connection.run statement s.connection).1, s.after statement), j) := rfl
  simp only [execute, exec_bind, ran, exec_ofExcept, result]
  cases collect (resultsOf (Connection.run statement s.connection).1) <;> rfl

theorem exec_sendNoted (statement : String) (s : Session κ) (j : Journal) :
    (sendNoted statement).exec s j = (((s.result statement).map fun _ => (), s.after statement),
      j ++ [⟨.debug, Text.truncated statement⟩]) := by
  have mapped : (discard (execute (κ := κ) statement)) = (fun _ => ()) <$> execute statement := rfl
  simp only [sendNoted, exec_bind, exec_note, mapped, exec_map, exec_execute]
  cases s.result statement <;> rfl

/-- The line about a cleanup that fails. -/
def cleanupLines : Except Failure (List Affected) → List Record
  | .ok _ => []
  | .error failure => [⟨.warn, "Ignoring the failure of the cleanup: " ++ failure.summary⟩]

/-- The arguments are staged by the setup. When it fails, its failure stays, whatever
becomes of the cleanup. -/
theorem exec_stage (e : Execution) (s : Session κ) (j : Journal) :
    (stage e).exec s j = match e.setup with
      | none => ((.ok (), s), j)
      | some setup =>
        match s.result setup, e.cleanup with
        | .ok _, _ => ((.ok (), s.after setup), j ++ [⟨.debug, Text.truncated setup⟩])
        | .error failure, none =>
          ((.error failure, s.after setup), j ++ [⟨.debug, Text.truncated setup⟩])
        | .error failure, some cleanup =>
          ((.error failure, (s.after setup).after cleanup), j ++ [⟨.debug, Text.truncated setup⟩] ++
            cleanupLines ((s.after setup).result cleanup)) := by
  obtain ⟨setup, cleanup, statement, arguments⟩ := e
  cases setup with
  | none => rfl
  | some setup =>
    simp only [stage, Option.forM, exec_bind, exec_attempt, exec_sendNoted]
    cases s.result setup with
    | ok => rfl
    | error failure =>
      cases cleanup with
      | none => rfl
      | some cleanup =>
        simp only [Except.map, exec_bind, exec_attempt, exec_execute]
        cases (s.after setup).result cleanup with
        | ok => simp [cleanupLines]
        | error => rfl

variable [Recording κ]

/-- Statements were sent, and nothing but the connection noticed. -/
structure Sends (s s' : Session κ) (statements : List String) : Prop where
  pool : s'.pool = s.pool
  handles : s'.handles = s.handles
  handle : Connection.handle s'.connection = Connection.handle s.connection
  sent : Recording.sent s'.connection = Recording.sent s.connection ++ statements

theorem sends_nothing (s : Session κ) : Sends s s [] :=
  ⟨rfl, rfl, rfl, (List.append_nil _).symm⟩

theorem sends_after (s : Session κ) (statement : String) :
    Sends s (s.after statement) [statement] :=
  ⟨rfl, rfl, Recording.handle_run _ _, Recording.sent_run _ _⟩

theorem sends_trans {s middle s' : Session κ} {first second : List String}
    (before : Sends s middle first) (next : Sends middle s' second) :
    Sends s s' (first ++ second) := by
  refine ⟨next.pool.trans before.pool, next.handles.trans before.handles,
    next.handle.trans before.handle, ?_⟩
  rw [next.sent, before.sent, List.append_assoc]

/-- Nothing but what the execution says is sent to stage its arguments. -/
theorem stage_sends (e : Execution) (s : Session κ) (j : Journal) :
    ∃ outcome s' j' staged, (stage e).exec s j = ((outcome, s'), j') ∧ Sends s s' staged ∧
      staged.Sublist (e.setup.toList ++ e.cleanup.toList) := by
  rw [exec_stage]
  obtain ⟨setup, cleanup, statement, arguments⟩ := e
  cases setup with
  | none => exact ⟨.ok (), s, j, [], rfl, sends_nothing s, List.nil_sublist _⟩
  | some setup =>
    dsimp only
    cases s.result setup with
    | ok =>
      refine ⟨.ok (), _, _, [setup], rfl, sends_after s setup, ?_⟩
      exact List.sublist_append_left [setup] _
    | error failure =>
      cases cleanup with
      | none =>
        exact ⟨.error failure, _, _, [setup], rfl, sends_after s setup, List.Sublist.refl _⟩
      | some cleanup =>
        have both := sends_trans (sends_after s setup) (sends_after (s.after setup) cleanup)
        exact ⟨.error failure, _, _, _, rfl, both, List.Sublist.refl _⟩

/-- The session sees what the traffic shares. -/
structure Sees (s : Session κ) (t : Traffic) : Prop where
  pool : s.pool = t.pool
  handles : s.handles = t.handles

theorem sees_of_sends {s s' : Session κ} {t : Traffic} {statements : List String}
    (sees : s.Sees t) (sends : Sends s s' statements) : s'.Sees t :=
  ⟨sends.pool.trans sees.pool, sends.handles.trans sees.handles⟩

/-- The statement that goes with events, when there are any. -/
def carrying (statement : String) : List Event → List String
  | [] => []
  | _ :: _ => [statement]

/-- The events of a PREPARE, which succeeds when it is accepted; none when the
pool knows the name. -/
structure Preparing (a : Artifact) (s : Session κ) (events : List Event) : Prop where
  way : events.IsPrefix [.prepare (Connection.handle s.connection) a.name,
    .prepared (Connection.handle s.connection) a.name]
  needless : events = [] ↔ s.pool.contains (Connection.handle s.connection) a.name
  succeeds : .prepared (Connection.handle s.connection) a.name ∈ events ↔
    events ≠ [] ∧ s.Accepts a.statement

/-- From one session and traffic to another a statement was prepared, or need
not be. -/
structure Prepares (a : Artifact) (s : Session κ) (t : Traffic) (s' : Session κ) (t' : Traffic) :
    Prop where
  sees : s'.Sees t'
  handle : Connection.handle s'.connection = Connection.handle s.connection
  sends : ∃ preparing : List Event, Preparing a s preparing ∧
    t'.history = t.history ++ preparing ∧
    Recording.sent s'.connection =
      Recording.sent s.connection ++ carrying a.statement preparing

variable {a : Artifact} {s s' : Session κ} {t t' : Traffic}

private theorem prepares_nothing (sees : s.Sees t)
    (known : s.pool.contains (Connection.handle s.connection) a.name) : Prepares a s t s t :=
  ⟨sees, rfl, [], ⟨List.nil_prefix, by simp [known], by simp⟩, (List.append_nil _).symm,
    (List.append_nil _).symm⟩

private theorem prepares_turn (prepares : Prepares a s t s' t') (h : Handle)
    (phase : Option Phase) : Prepares a s t s' (t'.turn h phase) :=
  ⟨⟨prepares.sees.pool, prepares.sees.handles⟩, prepares.handle, prepares.sends⟩

private theorem prepares_put (prepares : Prepares a s t s' t') (pool : Pool) :
    Prepares a s t { s' with pool := pool } { t' with pool := pool } :=
  ⟨⟨rfl, prepares.sees.handles⟩, prepares.handle, prepares.sends⟩

/-- To send a PREPARE and await the answer takes two steps. -/
private theorem sendNoted_steps (sees : s.Sees t)
    (unknown : ¬ s.pool.contains (Connection.handle s.connection) a.name) (j : Journal) :
    ∃ t', Steps (t.turn (Connection.handle s.connection) (some (.missing a.name))) t' ∧
      Prepares a s t ((sendNoted a.statement).exec s j).1.2 t' ∧
      t'.phase (Connection.handle s.connection) =
        some (.settled (.unrecorded a.name) ((sendNoted a.statement).exec s j).1.1) := by
  generalize own : Connection.handle s.connection = h
  have missing : (t.turn h (some (.missing a.name))).phase h = some (.missing a.name) := by simp
  have sent := Steps.step .none (.advance missing .send)
  have preparing : (((t.turn h (some (.missing a.name))).turn h (some (.preparing a.name))).remember
      [.prepare h a.name]).phase h = some (.preparing a.name) := by simp
  have sends := sends_after s a.statement
  rw [exec_sendNoted]
  cases outcome : s.result a.statement with
  | error failure =>
    refine ⟨_, .step sent (.advance preparing .fail), ?_, by simp [Phase.settled, Except.map]⟩
    have asked : Preparing a s [.prepare h a.name] :=
      ⟨⟨[.prepared h a.name], by simp [own]⟩, by simpa using unknown, by simp [not_accepts outcome]⟩
    exact ⟨⟨sees.pool, sees.handles⟩, sends.handle, _, asked, by simp, sends.sent⟩
  | ok =>
    refine ⟨_, .step sent (.advance preparing .succeed), ?_, by simp [Phase.settled, Except.map]⟩
    have asked : Preparing a s [.prepare h a.name, .prepared h a.name] :=
      ⟨by simp [own], by simpa using unknown, by simp [own, accepts_of_result outcome]⟩
    exact ⟨⟨sees.pool, sees.handles⟩, sends.handle, _, asked, by simp, sends.sent⟩

/-- To make sure of a statement takes steps of the traffic. -/
theorem ensurePrepared_steps (a : Artifact) (sees : s.Sees t)
    (idle : t.phase (Connection.handle s.connection) = some .idle) (j : Journal) :
    ∃ t', Steps t t' ∧
      Prepares a s t ((ensurePrepared (Connection.handle s.connection) a.name
        (sendNoted a.statement)).exec s j).1.2 t' ∧
      t'.phase (Connection.handle s.connection) = some (.settled (.ready a.name)
        ((ensurePrepared (Connection.handle s.connection) a.name
          (sendNoted a.statement)).exec s j).1.1) := by
  have sharing : (s.pool, s.handles) = (t.pool, t.handles) := by
    rw [sees.pool, sees.handles]
  refine Pool.ensure_steps (Prepares a s t) ?_ ?_ ?_ sharing idle ?_ ?_ j
  · intro s' t' prepares
    rw [prepares.sees.pool, prepares.sees.handles]
  · intro s' t' phase prepares
    exact prepares_turn prepares _ phase
  · intro s' t' pool prepares
    exact prepares_put prepares pool
  · intro known
    rw [← sees.pool] at known
    exact prepares_nothing sees known
  · intro unknown
    rw [← sees.pool] at unknown
    exact sendNoted_steps sees unknown

/-- From one session and traffic to another an execution went on, to its end
when it has an outcome, and to its failure otherwise. -/
structure Executes {α : Type} (a : Artifact) (e : Execution) (s : Session κ) (t : Traffic)
    (outcome : Except Failure α) (s' : Session κ) (t' : Traffic) : Prop where
  sees : s'.Sees t'
  handle : Connection.handle s'.connection = Connection.handle s.connection
  sends : ∃ (preparing : List Event) (staged : List String) (executing : List Event),
    Preparing a s preparing ∧
    staged.Sublist (e.setup.toList ++ e.cleanup.toList) ∧
    executing.IsPrefix [.execute (Connection.handle s.connection) a.name] ∧
    (executing ≠ [] ↔ outcome.isOk) ∧
    t'.history = t.history ++ preparing ++ executing ∧
    Recording.sent s'.connection = Recording.sent s.connection ++
      carrying a.statement preparing ++ staged ++ carrying e.statement executing

private theorem executes_of_prepares {α : Type} {e : Execution} {middle staging : Session κ}
    {t₁ : Traffic} {staged : List String} {executing : List Event} {outcome : Except Failure α}
    (prepares : Prepares a s t middle t₁) (stages : Sends middle staging staged)
    (part : staged.Sublist (e.setup.toList ++ e.cleanup.toList))
    (executed : executing.IsPrefix [.execute (Connection.handle s.connection) a.name])
    (ended : executing ≠ [] ↔ outcome.isOk)
    (sends : Sends staging s' (carrying e.statement executing)) (sees : s'.Sees t')
    (history : t'.history = t₁.history ++ executing) : Executes a e s t outcome s' t' := by
  obtain ⟨preparing, asked, before, sent⟩ := prepares.sends
  have handle := sends.handle.trans (stages.handle.trans prepares.handle)
  refine ⟨sees, handle, preparing, staged, executing, asked, part, executed, ended, ?_, ?_⟩
  · rw [history, before]
  · rw [sends.sent, stages.sent, sent]

/-- An execution is a run of the traffic that ends with the connection idle. -/
theorem runPrepared_steps {α : Type} (read : RowReader α) (a : Artifact) (e : Execution)
    (sees : s.Sees t) (idle : t.phase (Connection.handle s.connection) = some .idle)
    (j : Journal) :
    ∃ t', Steps t t' ∧
      Executes a e s t ((runPrepared read a e).exec s j).1.1 ((runPrepared read a e).exec s j).1.2
        t' ∧
      t'.phase (Connection.handle s.connection) = some .idle := by
  obtain ⟨t₁, prepared, prepares, reached⟩ := ensurePrepared_steps a sees idle j
  simp only [runPrepared, exec_bind, exec_get]
  generalize (ensurePrepared _ _ _).exec s j = ensured at prepares reached ⊢
  rcases ensured with ⟨⟨failure | _, s₁⟩, j₁⟩
  · refine ⟨t₁, prepared, ?_, reached⟩
    exact executes_of_prepares prepares (sends_nothing s₁) (List.nil_sublist _) List.nil_prefix
      (by simp [Except.isOk, Except.toBool]) (sends_nothing s₁) prepares.sees
      (List.append_nil _).symm
  · obtain ⟨outcome, s₂, j₂, staged, ran, stages, part⟩ := stage_sends e s₁ j₁
    have seen := sees_of_sends prepares.sees stages
    simp only [ran]
    cases outcome with
    | error failure =>
      refine ⟨_, .step prepared (.advance reached .unstaged), ?_, by simp⟩
      exact executes_of_prepares prepares stages part List.nil_prefix
        (by simp [Except.isOk, Except.toBool]) (sends_nothing s₂) ⟨seen.pool, seen.handles⟩ rfl
    | ok =>
      simp only [exec_note, exec_fetch, exec_pure]
      refine ⟨_, .step prepared (.advance reached .execute), ?_, by simp⟩
      exact executes_of_prepares prepares stages part List.prefix_rfl
        (by simp [Except.isOk, Except.toBool]) (sends_after s₂ e.statement)
        ⟨seen.pool, seen.handles⟩ rfl

end Session

namespace Traffic

/-- Nothing that is known of a handle is forgotten in passing while somebody
holds it. -/
def KeepsEntries (t : Traffic) : Prop :=
  ∀ h names, t.Held h → t.pool.names? h = some names →
    (t.pool.count t.handles).2.names? h = some names ∧
    ∀ name, (t.pool.record t.handles h name).names? h = some (Pool.insertName name names) ∧
      ∀ k, k ≠ h → (t.pool.record t.handles k name).names? h = some names

/-- Whatever is executed from here on an idle connection goes on with the run. -/
def GoesOn (t : Traffic) : Prop :=
  ∀ {κ : Type} [Connection κ] [Recording κ] {α : Type} (read : RowReader α) (a : Artifact)
    (e : Execution) (s : Session κ) (j : Journal), s.Sees t →
    t.phase (Connection.handle s.connection) = some .idle →
    ∃ t', Reachable t' ∧
      Session.Executes a e s t ((Session.runPrepared read a e).exec s j).1.1
        ((Session.runPrepared read a e).exec s j).1.2 t' ∧
      t'.phase (Connection.handle s.connection) = some .idle

/-- Whichever connection is closed from here on, that goes on with the run too: the pool is
told, and knows nothing of the connection any more. -/
def Closes (t : Traffic) : Prop :=
  ∀ (h : Handle) (j : Journal), ∃ pool j', (Pool.close h).exec t.pool j = ((.ok (), pool), j') ∧
    Reachable ({ t with pool := pool }.remember [.closed h]) ∧ ∀ name, ¬ pool.contains h name

/-- What connections that share a pool rely on. -/
structure Safe (t : Traffic) : Prop where
  executes : ExecutesPrepared t.history
  prepares : PreparesOnce t.history
  entries : KeepsEntries t
  goesOn : GoesOn t
  closes : Closes t

private theorem keepsEntries {t : Traffic} (lawful : Lawful t) : KeepsEntries t := by
  intro h names held known
  have alive : t.handles.isAlive h := (isAlive_iff_held lawful.counted).mpr held
  refine ⟨?_, fun name => ⟨Pool.names?_record_self known, fun k differ => ?_⟩⟩
  · rw [Pool.count, Pool.names?_prune, if_pos alive]
    exact known
  · rcases Pool.names?_record_of_ne t.pool t.handles name differ.symm with kept | ⟨dead, _⟩
    · rw [kept]
      exact known
    · rw [alive] at dead
      cases dead

/-- Every run is safe, however the steps of its connections fall. -/
theorem safe_of_reachable {t : Traffic} (reachable : Reachable t) : Safe t := by
  have lawful := steps_lawful lawful_start reachable
  refine ⟨lawful.executes, lawful.prepares, keepsEntries lawful, ?_, fun h j => ?_⟩
  · intro κ _ _ α read a e s j sees idle
    obtain ⟨t', steps, executes, settled⟩ := Session.runPrepared_steps read a e sees idle j
    exact ⟨t', steps_trans reachable steps, executes, settled⟩
  · obtain ⟨j', closed⟩ := Pool.exec_close t.pool h j
    exact ⟨_, j', closed, .step reachable (.close t h), fun _ known =>
      (Pool.contains_forget.mp known).1 rfl⟩

/-- Two connections ask for one statement. The second one is refused it; the
first one executes it twice, is closed and has to prepare it again. -/
theorem two_connections_are_safe :
    ∃ t, Reachable t ∧ t.history =
      [.prepare ⟨1⟩ "q", .prepare ⟨2⟩ "q", .prepared ⟨1⟩ "q", .execute ⟨1⟩ "q", .execute ⟨1⟩ "q",
        .closed ⟨1⟩, .prepare ⟨1⟩ "q"] ∧ Safe t := by
  have opened := Steps.step (.step .none (.connect {})) (.connect _)
  have missed := Steps.step (.step opened
      (.advance (h := ⟨1⟩) rfl (@Advance.miss _ _ "q" (by decide))))
    (.advance (h := ⟨2⟩) rfl (@Advance.miss _ _ "q" (by decide)))
  have sent := Steps.step (.step missed (.advance (h := ⟨1⟩) rfl .send))
    (.advance (h := ⟨2⟩) rfl .send)
  have answered := Steps.step (.step sent (.advance (h := ⟨2⟩) rfl .fail))
    (.advance (h := ⟨1⟩) rfl .succeed)
  have executed := Steps.step (.step answered (.record (h := ⟨1⟩) rfl))
    (.advance (h := ⟨1⟩) rfl .execute)
  have again := Steps.step (.step executed
      (.advance (h := ⟨1⟩) rfl (@Advance.hit _ _ "q" (by decide))))
    (.advance (h := ⟨1⟩) rfl .execute)
  have closed := Steps.step (.step again (.close _ ⟨1⟩))
    (.advance (h := ⟨1⟩) rfl (@Advance.miss _ _ "q" (by decide)))
  have resent := Steps.step closed (.advance (h := ⟨1⟩) rfl .send)
  exact ⟨_, resent, rfl, safe_of_reachable resent⟩

end Traffic

end PreparedSql
