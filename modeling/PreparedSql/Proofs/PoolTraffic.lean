import PreparedSql.Proofs.PoolEntries
import PreparedSql.Proofs.PoolHistory

/-! Connections that share a pool, one step after the other. An execution looks
its name up, prepares the statement where the pool does not know it, records the
name and executes; between any two of its steps other connections may take
theirs, and connections may be opened, closed and dropped, the pool cleared and
counted. However the steps fall, nothing is executed that was not prepared, and
nothing is prepared twice. -/
namespace PreparedSql

/-- How far an execution on a connection is. -/
inductive Phase where
  | idle
  /-- The pool did not know the name. -/
  | missing (name : String)
  /-- PREPARE is sent and not answered yet. -/
  | preparing (name : String)
  /-- PREPARE succeeded; the pool does not know it yet. -/
  | unrecorded (name : String)
  | ready (name : String)
  deriving DecidableEq

/-- Connections and what they share. -/
structure Traffic where
  handles : Handles := {}
  pool : Pool := {}
  /-- The phase of every open connection. -/
  phase : Handle → Option Phase := fun _ => none
  /-- How many hold a handle beside its connection. -/
  others : Handle → Nat := fun _ => 0
  /-- What happened, the oldest first. -/
  history : List Event := []

namespace Traffic

open History

/-- An execution goes on, or the connection is opened or dropped. -/
def turn (t : Traffic) (h : Handle) (phase : Option Phase) : Traffic :=
  { t with phase := fun k => if k = h then phase else t.phase k }

/-- The number of those that hold a handle beside its connection changes. -/
def sharedBy (t : Traffic) (h : Handle) (n : Nat) : Traffic :=
  { t with others := fun k => if k = h then n else t.others k }

def remember (t : Traffic) (events : List Event) : Traffic :=
  { t with history := t.history ++ events }

/-- Somebody holds the handle: its connection, or somebody else. -/
def Held (t : Traffic) (h : Handle) : Prop :=
  t.phase h ≠ none ∨ 0 < t.others h

/-- How an execution goes on, and what happens with it, while the pool stays as
it is. -/
inductive Advance (pool : Pool) (h : Handle) : Phase → Phase → List Event → Prop where
  /-- An execution begins; the pool knows its name. -/
  | hit {name : String} (known : pool.contains h name) : Advance pool h .idle (.ready name) []
  /-- An execution begins; the pool does not know its name. -/
  | miss {name : String} (unknown : ¬ pool.contains h name) :
    Advance pool h .idle (.missing name) []
  | send {name : String} :
    Advance pool h (.missing name) (.preparing name) [.prepare h name]
  | fail {name : String} : Advance pool h (.preparing name) .idle []
  | succeed {name : String} :
    Advance pool h (.preparing name) (.unrecorded name) [.prepared h name]
  | execute {name : String} : Advance pool h (.ready name) .idle [.execute h name]
  /-- An execution is given up before it sends anything, or when its arguments
  cannot be staged. -/
  | leave {name : String} : Advance pool h (.missing name) .idle []
  | unstaged {name : String} : Advance pool h (.ready name) .idle []

/-- One step of one of the parties. -/
inductive Step : Traffic → Traffic → Prop where
  /-- A connection is opened with a handle of its own. -/
  | connect (t : Traffic) :
    Step t ({ t with handles := t.handles.make.2 }.turn t.handles.make.1 (some .idle))
  /-- Somebody takes a clone of a handle. -/
  | share {t : Traffic} {h : Handle} (held : t.Held h) :
    Step t ({ t with handles := t.handles.clone h }.sharedBy h (t.others h + 1))
  /-- Somebody lets go of a clone. -/
  | letGo {t : Traffic} {h : Handle} (held : 0 < t.others h) :
    Step t ({ t with handles := t.handles.drop h }.sharedBy h (t.others h - 1))
  /-- A connection is dropped; the pool is not told. -/
  | drop {t : Traffic} {h : Handle} (idle : t.phase h = some .idle) :
    Step t ({ t with handles := t.handles.drop h }.turn h none)
  | advance {t : Traffic} {h : Handle} {p p' : Phase} {events : List Event}
    (before : t.phase h = some p) (next : Advance t.pool h p p' events) :
    Step t ((t.turn h (some p')).remember events)
  | record {t : Traffic} {h : Handle} {name : String}
    (before : t.phase h = some (.unrecorded name)) :
    Step t ({ t with pool := t.pool.record t.handles h name }.turn h (some (.ready name)))
  /-- The pool is told that a connection is closed. -/
  | close (t : Traffic) (h : Handle) :
    Step t ({ t with pool := t.pool.forget h }.remember [.closed h])
  | clear (t : Traffic) : Step t ({ t with pool := {} }.remember [.cleared])
  | count (t : Traffic) : Step t { t with pool := (t.pool.count t.handles).2 }

/-- Any number of steps. -/
inductive Steps (t : Traffic) : Traffic → Prop where
  | none : Steps t t
  | step {middle t' : Traffic} (before : Steps t middle) (next : Step middle t') : Steps t t'

/-- What comes out of a run that begins without connections. -/
def Reachable (t : Traffic) : Prop :=
  Steps {} t

theorem steps_trans {t middle t' : Traffic} (first : Steps t middle) (second : Steps middle t') :
    Steps t t' := by
  induction second with
  | none => exact first
  | step _ next ih => exact .step ih next

section
variable (t : Traffic) (h k : Handle)

@[simp] theorem handles_turn (phase : Option Phase) : (t.turn h phase).handles = t.handles := rfl
@[simp] theorem pool_turn (phase : Option Phase) : (t.turn h phase).pool = t.pool := rfl
@[simp] theorem others_turn (phase : Option Phase) : (t.turn h phase).others = t.others := rfl
@[simp] theorem history_turn (phase : Option Phase) : (t.turn h phase).history = t.history := rfl

@[simp] theorem phase_turn (phase : Option Phase) :
    (t.turn h phase).phase k = if k = h then phase else t.phase k := rfl

@[simp] theorem handles_remember (es : List Event) : (t.remember es).handles = t.handles := rfl
@[simp] theorem pool_remember (es : List Event) : (t.remember es).pool = t.pool := rfl
@[simp] theorem phase_remember (es : List Event) : (t.remember es).phase = t.phase := rfl
@[simp] theorem others_remember (es : List Event) : (t.remember es).others = t.others := rfl

@[simp] theorem history_remember (es : List Event) :
    (t.remember es).history = t.history ++ es := rfl

@[simp] theorem handles_sharedBy (n : Nat) : (t.sharedBy h n).handles = t.handles := rfl
@[simp] theorem pool_sharedBy (n : Nat) : (t.sharedBy h n).pool = t.pool := rfl
@[simp] theorem phase_sharedBy (n : Nat) : (t.sharedBy h n).phase = t.phase := rfl
@[simp] theorem history_sharedBy (n : Nat) : (t.sharedBy h n).history = t.history := rfl

@[simp] theorem others_sharedBy (n : Nat) :
    (t.sharedBy h n).others k = if k = h then n else t.others k := rfl

end

/-! ### Handles are counted -/

/-- Every handle is held by its connection and by those that share it. -/
structure Counted (t : Traffic) : Prop where
  /-- A handle that was not made yet is nobody's. -/
  made : ∀ h, t.Held h → h.id < t.handles.next
  holds : ∀ h : Handle, t.handles.holds h.id = (t.phase h).isSome.toNat + t.others h

theorem isAlive_iff_held {t : Traffic} (counted : Counted t) {h : Handle} :
    t.handles.isAlive h ↔ t.Held h := by
  rw [Handles.isAlive, counted.holds, Held]
  cases t.phase h <;> simp [Nat.pos_iff_ne_zero]

theorem counted_start : Counted {} := by
  refine ⟨?_, fun h => rfl⟩
  rintro h (opened | shared)
  · exact absurd rfl opened
  · cases shared

private theorem id_ne {h k : Handle} (differ : k ≠ h) : k.id ≠ h.id :=
  fun same => differ (congrArg Handle.mk same)

/-- It is enough to count anew the handle that a step is about. -/
private theorem counted_at {t t' : Traffic} (h : Handle) (counted : Counted t)
    (made : h.id < t'.handles.next) (grown : t.handles.next ≤ t'.handles.next)
    (holds : t'.handles.holds h.id = (t'.phase h).isSome.toNat + t'.others h)
    (others : ∀ k, k ≠ h → t'.phase k = t.phase k ∧ t'.others k = t.others k ∧
      t'.handles.holds k.id = t.handles.holds k.id) : Counted t' := by
  refine ⟨fun k held => ?_, fun k => ?_⟩
  · by_cases same : k = h
    · rw [same]
      exact made
    · obtain ⟨phase, shared, _⟩ := others k same
      rw [Held, phase, shared] at held
      exact Nat.lt_of_lt_of_le (counted.made k held) grown
  · by_cases same : k = h
    · rw [same]
      exact holds
    · obtain ⟨phase, shared, kept⟩ := others k same
      rw [phase, shared, kept]
      exact counted.holds k

theorem step_counted {t t' : Traffic} (counted : Counted t) (step : Step t t') : Counted t' := by
  cases step with
  | connect =>
    have unshared : t.others ⟨t.handles.next⟩ = 0 := by
      by_cases none : t.others ⟨t.handles.next⟩ = 0
      · exact none
      · have early := counted.made ⟨t.handles.next⟩ (.inr (Nat.pos_of_ne_zero none))
        exact absurd early (Nat.lt_irrefl _)
    refine counted_at ⟨t.handles.next⟩ counted (Nat.lt_succ_self _) (Nat.le_succ _) ?_ ?_
    · simp [Handles.make, unshared]
    · intro k differ
      have apart := id_ne differ
      simp [Handles.make, differ, apart]
  | @share h held =>
    refine counted_at h counted (counted.made h held) (Nat.le_refl _) ?_ ?_
    · simp [Handles.clone, counted.holds, Nat.add_assoc]
    · intro k differ
      simp [Handles.clone, differ, id_ne differ]
  | @letGo h held =>
    refine counted_at h counted (counted.made h (.inr held)) (Nat.le_refl _) ?_ ?_
    · simp [Handles.drop, counted.holds, Nat.add_sub_assoc held]
    · intro k differ
      simp [Handles.drop, differ, id_ne differ]
  | @drop h idle =>
    refine counted_at h counted (counted.made h (.inl (by simp [idle]))) (Nat.le_refl _) ?_ ?_
    · simp [Handles.drop, counted.holds, idle]
    · intro k differ
      simp [Handles.drop, differ, id_ne differ]
  | @advance h p p' events before next =>
    refine counted_at h counted (counted.made h (.inl (by simp [before]))) (Nat.le_refl _) ?_ ?_
    · simp [counted.holds, before]
    · intro k differ
      simp [differ]
  | @record h name before =>
    refine counted_at h counted (counted.made h (.inl (by simp [before]))) (Nat.le_refl _) ?_ ?_
    · simp [counted.holds, before]
    · intro k differ
      simp [differ]
  | close => exact ⟨counted.made, counted.holds⟩
  | clear => exact ⟨counted.made, counted.holds⟩
  | count => exact ⟨counted.made, counted.holds⟩

/-! ### The pool knows what stands -/

/-- What the pool knows, and what executions rely on, was prepared; what stands
on an open connection is known. -/
structure Kept (t : Traffic) : Prop where
  /-- What was prepared was prepared on a handle that was made. -/
  old : ∀ h name, .prepared h name ∈ t.history → h.id < t.handles.next
  known : ∀ h name, t.pool.contains h name → .prepared h name ∈ t.history
  ready : ∀ h name, t.phase h = some (.ready name) ∨ t.phase h = some (.unrecorded name) →
    .prepared h name ∈ t.history
  stands : ∀ h name, t.phase h ≠ none → Stands t.history h name →
    t.pool.contains h name ∨ t.phase h = some (.unrecorded name)
  missing : ∀ h name, t.phase h = some (.missing name) → ¬ Stands t.history h name

theorem kept_start : Kept {} := by
  refine ⟨?_, ?_, ?_, ?_, ?_⟩
  · intro h name member
    cases member
  · intro h name known
    simp [Pool.contains, Pool.names?] at known
  · rintro h name (ready | unrecorded)
    · cases ready
    · cases unrecorded
  · intro h name opened
    exact absurd rfl opened
  · intro h name missing
    cases missing

section
variable {t : Traffic} {h k : Handle} {p p' : Phase} {events : List Event} {name : String}

/-- An execution does not touch the statements of other connections. -/
private theorem advance_apart (next : Advance t.pool h p p' events) (differ : k ≠ h) :
    Stands (t.history ++ events) k name ↔ Stands t.history k name := by
  cases next <;> simp [differ.symm]

/-- What stood before an execution goes on is known. -/
private theorem advance_known (kept : Kept t) (before : t.phase h = some p)
    (next : Advance t.pool h p p' events) (stands : Stands t.history h name) :
    t.pool.contains h name := by
  rcases kept.stands h name (by simp [before]) stands with known | unrecorded
  · exact known
  · rw [before] at unrecorded
    cases next <;> cases unrecorded

private theorem advance_ready (kept : Kept t) (before : t.phase h = some p)
    (next : Advance t.pool h p p' events) (ready : p' = .ready name ∨ p' = .unrecorded name) :
    .prepared h name ∈ t.history ++ events := by
  cases next with
  | hit known =>
    rcases ready with ⟨⟨⟩⟩ | ⟨⟨⟩⟩
    exact List.mem_append_left _ (kept.known h name known)
  | succeed =>
    rcases ready with ⟨⟨⟩⟩ | ⟨⟨⟩⟩
    exact List.mem_append_right _ (List.mem_singleton.mpr rfl)
  | _ => rcases ready with ⟨⟨⟩⟩ | ⟨⟨⟩⟩

private theorem advance_stands (kept : Kept t) (before : t.phase h = some p)
    (next : Advance t.pool h p p' events) (stands : Stands (t.history ++ events) h name) :
    t.pool.contains h name ∨ p' = .unrecorded name := by
  have known (stood : Stands t.history h name) := advance_known kept before next stood
  cases next with
  | succeed =>
    rcases stands_prepared.mp stands with old | ⟨_, rfl⟩
    · exact .inl (known old)
    · exact .inr rfl
  | send => exact .inl (known (stands_prepare.mp stands))
  | execute => exact .inl (known (stands_execute.mp stands))
  | hit | miss | fail | leave | unstaged =>
    rw [List.append_nil] at stands
    exact .inl (known stands)

private theorem advance_missing (kept : Kept t) (before : t.phase h = some p)
    (next : Advance t.pool h p p' events) (missing : p' = .missing name) :
    ¬ Stands (t.history ++ events) h name := by
  intro stands
  have known (stood : Stands t.history h name) := advance_known kept before next stood
  cases next with
  | miss unknown =>
    cases missing
    rw [List.append_nil] at stands
    exact unknown (known stands)
  | _ => cases missing

private theorem kept_advance (counted : Counted t) (kept : Kept t) (before : t.phase h = some p)
    (next : Advance t.pool h p p' events) : Kept ((t.turn h (some p')).remember events) := by
  have opened : t.phase h ≠ none := by simp [before]
  refine ⟨fun k name member => ?_, fun k name known => ?_, fun k name ready => ?_,
    fun k name opened stands => ?_, fun k name missing => ?_⟩
  · rcases List.mem_append.mp member with old | new
    · exact kept.old k name old
    · have own : k = h := by cases next <;> simp_all
      rw [own]
      exact counted.made h (.inl opened)
  · exact List.mem_append_left _ (kept.known k name known)
  · by_cases same : k = h
    · subst same
      show .prepared k name ∈ t.history ++ events
      exact advance_ready kept before next (by simpa using ready)
    · simp only [phase_remember, phase_turn, same, ↓reduceIte] at ready
      exact List.mem_append_left _ (kept.ready k name ready)
  · by_cases same : k = h
    · subst same
      simpa using advance_stands kept before next stands
    · rw [history_remember, history_turn, advance_apart next same] at stands
      simp only [phase_remember, phase_turn, same, ↓reduceIte] at opened ⊢
      exact kept.stands k name opened stands
  · by_cases same : k = h
    · subst same
      show ¬ Stands (t.history ++ events) k name
      exact advance_missing kept before next (by simpa using missing)
    · simp only [phase_remember, phase_turn, same, ↓reduceIte] at missing
      rw [history_remember, history_turn, advance_apart next same]
      exact kept.missing k name missing

private theorem kept_connect (kept : Kept t) :
    Kept ({ t with handles := t.handles.make.2 }.turn t.handles.make.1 (some .idle)) := by
  refine ⟨fun k name member => Nat.lt_succ_of_lt (kept.old k name member), kept.known, ?_, ?_, ?_⟩
  · intro k name ready
    by_cases same : k = t.handles.make.1
    · simp [same] at ready
    · exact kept.ready k name (by simpa [same] using ready)
  · intro k name opened stands
    by_cases same : k = t.handles.make.1
    · -- A handle that is just made has no history.
      have early := kept.old k name (prepared_of_stands stands)
      rw [same] at early
      exact absurd early (Nat.lt_irrefl _)
    · have before : t.phase k ≠ none := by simpa [same] using opened
      simpa [same] using kept.stands k name before stands
  · intro k name missing
    by_cases same : k = t.handles.make.1
    · simp [same] at missing
    · exact kept.missing k name (by simpa [same] using missing)

private theorem kept_drop (kept : Kept t) :
    Kept ({ t with handles := t.handles.drop h }.turn h none) := by
  refine ⟨kept.old, kept.known, ?_, ?_, ?_⟩
  · intro k name ready
    by_cases same : k = h
    · simp [same] at ready
    · exact kept.ready k name (by simpa [same] using ready)
  · intro k name opened stands
    by_cases same : k = h
    · simp [same] at opened
    · have before : t.phase k ≠ none := by simpa [same] using opened
      simpa [same] using kept.stands k name before stands
  · intro k name missing
    by_cases same : k = h
    · simp [same] at missing
    · exact kept.missing k name (by simpa [same] using missing)

private theorem kept_record (counted : Counted t) (kept : Kept t)
    (before : t.phase h = some (.unrecorded name)) :
    Kept ({ t with pool := t.pool.record t.handles h name }.turn h (some (.ready name))) := by
  have prepared := kept.ready h name (.inr before)
  refine ⟨kept.old, ?_, ?_, ?_, ?_⟩
  · intro k other known
    rcases Pool.contains_of_record known with ⟨rfl, rfl⟩ | old
    · exact prepared
    · exact kept.known k other old
  · intro k other ready
    by_cases same : k = h
    · obtain rfl : name = other := by simpa [same] using ready
      rw [same]
      exact prepared
    · exact kept.ready k other (by simpa [same] using ready)
  · intro k other opened stands
    by_cases same : k = h
    · subst same
      refine .inl (Pool.contains_record_self.mpr ?_)
      rcases kept.stands k other (by simp [before]) stands with known | unrecorded
      · exact .inr known
      · rw [before] at unrecorded
        cases unrecorded
        exact .inl rfl
    · have opened : t.phase k ≠ none := by simpa [same] using opened
      have alive : t.handles.isAlive k := (isAlive_iff_held counted).mpr (.inl opened)
      rcases kept.stands k other opened stands with known | unrecorded
      · exact .inl ((Pool.contains_record_of_ne same alive).mpr known)
      · exact .inr (by simpa [same] using unrecorded)
  · intro k other missing
    by_cases same : k = h
    · simp [same] at missing
    · exact kept.missing k other (by simpa [same] using missing)

theorem step_kept {t' : Traffic} (counted : Counted t) (kept : Kept t) (step : Step t t') :
    Kept t' := by
  cases step with
  | connect => exact kept_connect kept
  | share => exact ⟨kept.old, kept.known, kept.ready, kept.stands, kept.missing⟩
  | letGo => exact ⟨kept.old, kept.known, kept.ready, kept.stands, kept.missing⟩
  | drop => exact kept_drop kept
  | advance before next => exact kept_advance counted kept before next
  | record before => exact kept_record counted kept before
  | close h =>
    refine ⟨fun k name member => ?_, fun k name known => ?_, fun k name ready => ?_,
      fun k name opened stands => ?_, fun k name missing stands => ?_⟩
    · exact kept.old k name (by simpa using member)
    · exact List.mem_append_left _ (kept.known k name (Pool.contains_forget.mp known).2)
    · exact List.mem_append_left _ (kept.ready k name ready)
    · obtain ⟨stood, apart⟩ := stands_closed.mp stands
      rcases kept.stands k name opened stood with known | unrecorded
      · exact .inl (Pool.contains_forget.mpr ⟨apart.symm, known⟩)
      · exact .inr unrecorded
    · exact kept.missing k name missing (stands_closed.mp stands).1
  | clear =>
    refine ⟨fun k name member => ?_, fun k name known => ?_, fun k name ready => ?_,
      fun k name opened stands => ?_, fun k name missing stands => ?_⟩
    · exact kept.old k name (by simpa using member)
    · simp [Pool.contains, Pool.names?] at known
    · exact List.mem_append_left _ (kept.ready k name ready)
    · exact absurd stands stands_cleared
    · exact stands_cleared stands
  | count =>
    refine ⟨kept.old, fun k name known => ?_, kept.ready, fun k name opened stands => ?_,
      kept.missing⟩
    · exact kept.known k name (Pool.contains_prune.mp known).2
    · have alive : t.handles.isAlive k := (isAlive_iff_held counted).mpr (.inl opened)
      rcases kept.stands k name opened stands with known | unrecorded
      · exact .inl (Pool.contains_prune.mpr ⟨alive, known⟩)
      · exact .inr unrecorded

end

/-! ### The laws of a run -/

/-- What holds after every step of a run. -/
structure Lawful (t : Traffic) : Prop where
  counted : Counted t
  kept : Kept t
  executes : ExecutesPrepared t.history
  prepares : PreparesOnce t.history

theorem lawful_start : Lawful {} := by
  refine ⟨counted_start, kept_start, ?_, ?_⟩
  · intro i h name executed
    cases executed
  · intro i j h name _ prepared
    cases prepared

private theorem advance_executes {t : Traffic} {h : Handle} {p p' : Phase} {events : List Event}
    (kept : Kept t) (executes : ExecutesPrepared t.history) (before : t.phase h = some p)
    (next : Advance t.pool h p p' events) : ExecutesPrepared (t.history ++ events) := by
  cases next with
  | @execute name =>
    refine executesPrepared_concat executes fun k other same => ?_
    cases same
    exact kept.ready h name (.inl before)
  | send => exact executesPrepared_concat executes fun _ _ same => by cases same
  | succeed => exact executesPrepared_concat executes fun _ _ same => by cases same
  | hit | miss | fail | leave | unstaged =>
    rw [List.append_nil]
    exact executes

private theorem advance_prepares {t : Traffic} {h : Handle} {p p' : Phase} {events : List Event}
    (kept : Kept t) (prepares : PreparesOnce t.history) (before : t.phase h = some p)
    (next : Advance t.pool h p p' events) : PreparesOnce (t.history ++ events) := by
  cases next with
  | @send name =>
    refine preparesOnce_concat prepares fun k other same => ?_
    cases same
    exact kept.missing h name before
  | succeed => exact preparesOnce_concat prepares fun _ _ same => by cases same
  | execute => exact preparesOnce_concat prepares fun _ _ same => by cases same
  | hit | miss | fail | leave | unstaged =>
    rw [List.append_nil]
    exact prepares

theorem step_lawful {t t' : Traffic} (lawful : Lawful t) (step : Step t t') : Lawful t' := by
  obtain ⟨counted, kept, executes, prepares⟩ := lawful
  refine ⟨step_counted counted step, step_kept counted kept step, ?_, ?_⟩
  · cases step with
    | advance before next => exact advance_executes (t := t) kept executes before next
    | close => exact executesPrepared_concat executes fun _ _ same => by cases same
    | clear => exact executesPrepared_concat executes fun _ _ same => by cases same
    | connect | share | letGo | drop | record | count => exact executes
  · cases step with
    | advance before next => exact advance_prepares (t := t) kept prepares before next
    | close => exact preparesOnce_concat prepares fun _ _ same => by cases same
    | clear => exact preparesOnce_concat prepares fun _ _ same => by cases same
    | connect | share | letGo | drop | record | count => exact prepares

theorem steps_lawful {t t' : Traffic} (lawful : Lawful t) (run : Steps t t') : Lawful t' := by
  induction run with
  | none => exact lawful
  | step _ next ih => exact step_lawful ih next

end Traffic

end PreparedSql
