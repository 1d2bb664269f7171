import PreparedSql.Library.Author
import PreparedSql.Proofs.MemoCells
import PreparedSql.Session.Manager

/-! Callers of a manager at the same time. A call looks its key up; where nothing is kept it
builds a query set and prepares it, while the manager is free for others; then it keeps what
it prepared, unless another call has kept something by then, and answers what is kept. So
two callers may both find nothing, and both build, but they answer the same query set: the
first one keeps its own and the other one drops what it made. -/
namespace PreparedSql

open PreparedSql.Action

/-! ### What is kept -/

namespace Manager

variable {m : Manager} {key key' : String} {v v' : Vendor} {s s' : QuerySet}

theorem keep_of_found (found : m.find? key v = some s) : m.keep key v s' = (s, m) := by
  rw [keep, found]

theorem keep_of_missing (missing : m.find? key v = none) :
    m.keep key v s = (s, { m with entries := m.entries ++ [((key, v), s)] }) := by
  rw [keep, missing]

/-- What is answered is what is found from then on. -/
theorem find?_keep_self (m : Manager) (key : String) (v : Vendor) (s : QuerySet) :
    (m.keep key v s).2.find? key v = some (m.keep key v s).1 := by
  cases found : m.find? key v with
  | some kept => rw [keep_of_found found, found]
  | none =>
    rw [keep_of_missing found]
    rw [find?, Option.map_eq_none_iff] at found
    simp only [find?, List.find?_append, found, Option.none_or, List.find?_singleton, beq_self_eq_true,
      ↓reduceIte, Option.map_some]

/-- What other keys and databases have is left alone. -/
theorem find?_keep_of_ne (other : (key', v') ≠ (key, v)) :
    (m.keep key v s).2.find? key' v' = m.find? key' v' := by
  cases found : m.find? key v with
  | some kept => rw [keep_of_found found]
  | none =>
    have foreign : ((key, v) == (key', v')) = false := by simpa using Ne.symm other
    rw [keep_of_missing found]
    simp only [find?, List.find?_append, List.find?_singleton, foreign, Bool.false_eq_true, ↓reduceIte,
      Option.or_none]

theorem find?_clear (m : Manager) (key : String) (v : Vendor) : m.clear.find? key v = none :=
  rfl

end Manager

/-- The query set is prepared for the database. -/
def QuerySet.PreparedFor (v : Vendor) (s : QuerySet) : Prop :=
  ∃ q c, s = .prepared q c ∧ c.artifact.vendor = v

/-- What comes of preparing is prepared for the database, whatever is in the cells. -/
theorem QuerySet.preparedFor_of_prepare {v : Vendor} {s s' : QuerySet} {t t' : Store}
    {j j' : Journal} (run : (s.prepareFor v).exec t j = ((.ok s', t'), j')) :
    s'.PreparedFor v := by
  rw [exec_prepareFor] at run
  split at run
  · next c found =>
    cases run
    obtain ⟨held, vendor⟩ := Store.found_for found
    cases s with
    | building q => cases held
    | prepared q c' =>
      cases held
      exact ⟨q, c, rfl, vendor⟩
  · have made {c : Compiled} {t'' : Store} {k : Journal}
        (ran : (Store.compile v s.query).exec t j = ((.ok c, t''), k)) : c.artifact.vendor = v := by
      rw [Store.exec_compile] at ran
      split at ran
      · next found =>
        cases ran
        exact (Store.found_for found).2
      · rcases inner : (Prepared.compile v s.query).exec t.types j with ⟨⟨failure | a, types⟩, j''⟩
        · rw [inner] at ran
          cases ran
        · rw [inner] at ran
          cases ran
          exact Prepared.vendor_of_compiled inner
    rcases ran : (Store.compile v s.query).exec t j with ⟨⟨failure | c, t''⟩, j''⟩
    · rw [ran] at run
      cases run
    · rw [ran] at run
      cases run
      exact ⟨s.query, c, rfl, made ran⟩

/-! ### Calls -/

/-- How far a caller is. -/
inductive Stage where
  | idle
  /-- Nothing was kept; the manager is free again, and the caller builds in its own way. -/
  | missing (key : String) (v : Vendor) (build : QuerySet → Action Store QuerySet)
  | built (key : String) (v : Vendor) (s : QuerySet)
  /-- Prepared, and not kept yet. -/
  | made (key : String) (v : Vendor) (s : QuerySet)

/-- What happens to a manager that somebody can tell. An answer counts from when the
manager gives it. -/
inductive Happening where
  | answered (caller : Nat) (key : String) (v : Vendor) (s : QuerySet)
  | failed (caller : Nat) (key : String) (v : Vendor) (failure : Failure)
  | cleared

/-- A manager with its callers. -/
structure Desk where
  managed : Managed
  stage : Nat → Stage := fun _ => .idle
  /-- What has happened, the newest first. -/
  history : List Happening := []

namespace Desk

/-- How a call goes on, and what happens with it. -/
inductive Advance (caller : Nat) (m : Managed) : Stage → Stage → Managed → List Happening → Prop where
  /-- A call begins; something is kept. -/
  | hit {key : String} {v : Vendor} {s : QuerySet} (found : m.manager.find? key v = some s) :
    Advance caller m .idle .idle m [.answered caller key v s]
  /-- A call begins; nothing is kept. -/
  | miss {key : String} {v : Vendor} {build : QuerySet → Action Store QuerySet}
    (missing : m.manager.find? key v = none) : Advance caller m .idle (.missing key v build) m []
  | build {key : String} {v : Vendor} {build : QuerySet → Action Store QuerySet} {s : QuerySet}
    {t : Store} {j j' : Journal}
    (run : (QuerySet.ofModel m.manager.model >>= build).exec m.store j = ((.ok s, t), j')) :
    Advance caller m (.missing key v build) (.built key v s) { m with store := t } []
  | buildFails {key : String} {v : Vendor} {build : QuerySet → Action Store QuerySet}
    {failure : Failure} {t : Store} {j j' : Journal}
    (run : (QuerySet.ofModel m.manager.model >>= build).exec m.store j =
      ((.error failure, t), j')) :
    Advance caller m (.missing key v build) .idle { m with store := t }
      [.failed caller key v failure]
  | prepare {key : String} {v : Vendor} {s s' : QuerySet} {t : Store} {j j' : Journal}
    (run : (s.prepareFor v).exec m.store j = ((.ok s', t), j')) :
    Advance caller m (.built key v s) (.made key v s') { m with store := t } []
  | prepareFails {key : String} {v : Vendor} {s : QuerySet} {failure : Failure} {t : Store}
    {j j' : Journal} (run : (s.prepareFor v).exec m.store j = ((.error failure, t), j')) :
    Advance caller m (.built key v s) .idle { m with store := t } [.failed caller key v failure]
  /-- What was made is kept, unless something is, and what is kept is answered. -/
  | keep {key : String} {v : Vendor} {s : QuerySet} :
    Advance caller m (.made key v s) .idle { m with manager := (m.manager.keep key v s).2 }
      [.answered caller key v (m.manager.keep key v s).1]

/-- A call has gone on. -/
def turn (d : Desk) (caller : Nat) (stage : Stage) (m : Managed) (happened : List Happening) : Desk :=
  { managed := m
    stage := fun k => if k = caller then stage else d.stage k
    history := happened ++ d.history }

/-- One step of somebody. -/
inductive Step (d : Desk) : Desk → Prop where
  | advance (caller : Nat) {stage : Stage} {m : Managed} {happened : List Happening}
    (next : Advance caller d.managed (d.stage caller) stage m happened) :
    Step d (d.turn caller stage m happened)
  | clear : Step d { d with
      managed := { d.managed with manager := d.managed.manager.clear }
      history := .cleared :: d.history }
  /-- Others use the store, for other managers or without any. -/
  | elsewhere (t : Store) : Step d { d with managed := { d.managed with store := t } }

/-- Any number of steps. -/
inductive Steps (d : Desk) : Desk → Prop where
  | none : Steps d d
  | step {middle d' : Desk} (before : Steps d middle) (next : Step middle d') : Steps d d'

/-- What comes of a manager that keeps nothing and that nobody calls. -/
def Reachable (d : Desk) : Prop :=
  ∃ store model, Steps { managed := ⟨store, { model := model }⟩ } d

/-! ### Answers -/

/-- What was answered last for a key and a database, since the manager was cleared. -/
def standing (key : String) (v : Vendor) : List Happening → Option QuerySet
  | [] => none
  | .answered _ key' v' s :: earlier =>
    if (key', v') = (key, v) then some s else standing key v earlier
  | .failed _ _ _ _ :: earlier => standing key v earlier
  | .cleared :: _ => none

/-- Every answer repeats the one that stands, if one does, and is prepared for its database. -/
inductive Consistent : List Happening → Prop where
  | nil : Consistent []
  | answered {caller : Nat} {key : String} {v : Vendor} {s : QuerySet} {earlier : List Happening}
    (before : Consistent earlier) (repeats : ∀ s' ∈ standing key v earlier, s = s')
    (prepared : s.PreparedFor v) : Consistent (.answered caller key v s :: earlier)
  | failed {caller : Nat} {key : String} {v : Vendor} {failure : Failure} {earlier : List Happening}
    (before : Consistent earlier) : Consistent (.failed caller key v failure :: earlier)
  | cleared {earlier : List Happening} (before : Consistent earlier) :
    Consistent (.cleared :: earlier)

section
variable {key : String} {v : Vendor} {s s' : QuerySet} {caller : Nat}
  {later between earlier history : List Happening}

theorem consistent_behind (consistent : Consistent (later ++ earlier)) : Consistent earlier := by
  induction later with
  | nil => exact consistent
  | cons happening later ih =>
    cases consistent with
    | answered before _ _ => exact ih before
    | failed before => exact ih before
    | cleared before => exact ih before

/-- An answer stands until the manager is cleared. -/
theorem standing_of_answered
    (consistent : Consistent (between ++ .answered caller key v s :: earlier))
    (kept : .cleared ∉ between) :
    standing key v (between ++ .answered caller key v s :: earlier) = some s := by
  induction between with
  | nil => exact if_pos rfl
  | cons happening between ih =>
    have rest (before : Consistent (between ++ .answered caller key v s :: earlier)) :=
      ih before fun member => kept (List.mem_cons_of_mem happening member)
    cases consistent with
    | @answered _ key' v' s' _ before repeats _ =>
      have stands := rest before
      rw [List.cons_append, standing]
      split
      · next same =>
        cases same
        rw [repeats s stands]
      · exact stands
    | failed before => exact rest before
    | cleared before => exact absurd List.mem_cons_self kept

theorem answered_of_standing (stands : standing key v history = some s) :
    ∃ caller, .answered caller key v s ∈ history := by
  induction history with
  | nil => cases stands
  | cons happening earlier ih =>
    cases happening with
    | answered caller key' v' s' =>
      rw [standing] at stands
      split at stands
      · next same =>
        cases same
        cases stands
        exact ⟨caller, List.mem_cons_self⟩
      · obtain ⟨caller', member⟩ := ih stands
        exact ⟨caller', List.mem_cons_of_mem _ member⟩
    | failed caller key' v' failure =>
      obtain ⟨caller', member⟩ := ih stands
      exact ⟨caller', List.mem_cons_of_mem _ member⟩
    | cleared => cases stands

theorem prepared_of_consistent (consistent : Consistent history)
    (happened : .answered caller key v s ∈ history) : s.PreparedFor v := by
  induction consistent with
  | nil => cases happened
  | answered _ _ prepared ih =>
    rcases List.mem_cons.mp happened with same | older
    · cases same
      exact prepared
    · exact ih older
  | failed _ ih =>
    rcases List.mem_cons.mp happened with same | older
    · cases same
    · exact ih older
  | cleared _ ih =>
    rcases List.mem_cons.mp happened with same | older
    · cases same
    · exact ih older

end

/-! ### What every run keeps -/

/-- The manager keeps what stands, the answers are consistent, and what waits to be kept is
prepared. -/
structure Orderly (d : Desk) : Prop where
  stands : ∀ key v, d.managed.manager.find? key v = standing key v d.history
  consistent : Consistent d.history
  made : ∀ caller key v s, d.stage caller = .made key v s → s.PreparedFor v

section
variable {d d' : Desk} {caller : Nat} {m m' : Managed} {stage stage' : Stage}
  {happened : List Happening}

/-- A step of a call leaves alone what is kept, unless it answers. -/
theorem advance_manager (next : Advance caller m stage stage' m' happened)
    (silent : ∀ key v s, .answered caller key v s ∉ happened) : m'.manager = m.manager := by
  cases next with
  | hit | miss | build | buildFails | prepare | prepareFails => rfl
  | keep => exact absurd List.mem_cons_self (silent _ _ _)

/-- A step of a call leaves alone what is kept for any other key or database than the one
that it answers. -/
theorem advance_find? (next : Advance caller m stage stage' m' happened) {key : String} {v : Vendor}
    (silent : ∀ s, .answered caller key v s ∉ happened) :
    m'.manager.find? key v = m.manager.find? key v := by
  cases next with
  | hit | miss | build | buildFails | prepare | prepareFails => rfl
  | @keep key' v' s =>
    refine Manager.find?_keep_of_ne fun same => ?_
    cases same
    exact silent _ List.mem_cons_self

theorem advance_happened (next : Advance caller m stage stage' m' happened) :
    happened = [] ∨ (∃ key v failure, happened = [.failed caller key v failure]) ∨
      ∃ key v s, happened = [.answered caller key v s] := by
  cases next with
  | miss | build | prepare => exact .inl rfl
  | buildFails | prepareFails => exact .inr (.inl ⟨_, _, _, rfl⟩)
  | hit | keep => exact .inr (.inr ⟨_, _, _, rfl⟩)

/-- What a call answers is kept from then on, and was kept before unless nothing was. -/
theorem advance_answered (next : Advance caller m stage stage' m' happened) {key : String}
    {v : Vendor} {s : QuerySet} (answered : .answered caller key v s ∈ happened) :
    m'.manager.find? key v = some s ∧
      (m.manager.find? key v = some s ∨
        m.manager.find? key v = none ∧ stage = .made key v s) := by
  cases next with
  | miss | build | prepare => cases answered
  | buildFails | prepareFails => cases List.mem_singleton.mp answered
  | hit found =>
    cases List.mem_singleton.mp answered
    exact ⟨found, .inl found⟩
  | @keep key' v' s' =>
    cases List.mem_singleton.mp answered
    refine ⟨Manager.find?_keep_self _ _ _ _, ?_⟩
    cases found : m.manager.find? key v with
    | some kept => exact .inl (by rw [Manager.keep_of_found found])
    | none => exact .inr ⟨rfl, by rw [Manager.keep_of_missing found]⟩

/-- A call waits with what is prepared for its database. -/
theorem advance_made (next : Advance caller m stage stage' m' happened) {key : String} {v : Vendor}
    {s : QuerySet} (made : stage' = .made key v s) : s.PreparedFor v := by
  cases next with
  | hit | miss | build | buildFails | prepareFails | keep => cases made
  | prepare run =>
    cases made
    exact QuerySet.preparedFor_of_prepare run

theorem step_orderly (orderly : Orderly d) (step : Step d d') : Orderly d' := by
  cases step with
  | clear =>
    exact ⟨fun key v => Manager.find?_clear _ key v, .cleared orderly.consistent, orderly.made⟩
  | elsewhere t => exact ⟨orderly.stands, orderly.consistent, orderly.made⟩
  | @advance caller stage m happened next =>
    have made : ∀ k key v s, (d.turn caller stage m happened).stage k = .made key v s →
        s.PreparedFor v := by
      intro k key v s waits
      rw [turn] at waits
      dsimp only at waits
      split at waits
      · exact advance_made next waits
      · exact orderly.made k key v s waits
    have kept (silent : ∀ key v s, .answered caller key v s ∉ happened) (key : String) (v : Vendor) :
        m.manager.find? key v = standing key v d.history := by
      rw [advance_manager next silent]
      exact orderly.stands key v
    rcases advance_happened next with rfl | ⟨key, v, failure, rfl⟩ | ⟨key, v, s, rfl⟩
    · refine ⟨kept fun key v s answered => ?_, orderly.consistent, made⟩
      cases answered
    · refine ⟨kept fun key' v' s answered => ?_, .failed orderly.consistent, made⟩
      cases List.mem_singleton.mp answered
    · obtain ⟨found, before⟩ := advance_answered next List.mem_cons_self
      refine ⟨fun key' v' => ?_, .answered orderly.consistent (fun s' stood => ?_) ?_, made⟩
      · show m.manager.find? key' v' = standing key' v' (.answered caller key v s :: d.history)
        rw [standing]
        split
        · next own =>
          cases own
          exact found
        · next other =>
          rw [← orderly.stands key' v']
          refine advance_find? next fun s' member => other ?_
          cases List.mem_singleton.mp member
          rfl
      · have stood : s' ∈ standing key v d.history := stood
        rw [← orderly.stands key v] at stood
        rcases before with same | ⟨missing, _⟩
        · rw [same] at stood
          exact Option.some.inj stood
        · rw [missing] at stood
          cases stood
      · rcases before with same | ⟨_, waits⟩
        · rw [orderly.stands key v] at same
          obtain ⟨caller', stood⟩ := answered_of_standing same
          exact prepared_of_consistent orderly.consistent stood
        · exact orderly.made caller key v s waits

theorem orderly_of_reachable (reachable : Reachable d) : Orderly d := by
  obtain ⟨store, model, steps⟩ := reachable
  induction steps with
  | none => exact ⟨fun _ _ => rfl, .nil, fun _ _ _ _ waits => by cases waits⟩
  | step _ next ih => exact step_orderly ih next

end

/-! ### Calls that nobody interrupts -/

/-- A caller goes on by itself until it is idle again and something has happened. -/
inductive Finishes (caller : Nat) : Managed → Stage → Managed → Happening → Prop where
  | last {m m' : Managed} {stage : Stage} {happening : Happening}
    (next : Advance caller m stage .idle m' [happening]) : Finishes caller m stage m' happening
  | more {m m' m'' : Managed} {stage stage' : Stage} {happening : Happening}
    (next : Advance caller m stage stage' m' []) (rest : Finishes caller m' stage' m'' happening) :
    Finishes caller m stage m'' happening

/-- What happens with a call that nobody interrupts. It answers what is kept, or goes on by
itself with what it builds. -/
inductive Called (caller : Nat) (key : String) (v : Vendor)
    (build : QuerySet → Action Store QuerySet) (m : Managed) : Managed → Happening → Prop where
  | hit {s : QuerySet} (found : m.manager.find? key v = some s) :
    Called caller key v build m m (.answered caller key v s)
  | miss {m' : Managed} {happening : Happening} (missing : m.manager.find? key v = none)
    (finishes : Finishes caller m (.missing key v build) m' happening) :
    Called caller key v build m m' happening

section
variable {d : Desk} {caller : Nat}

/-- Of a call that has gone on twice, the last stage counts. -/
theorem turn_turn (d : Desk) (caller : Nat) (stage stage' : Stage) (m m' : Managed)
    (happened happened' : List Happening) :
    (d.turn caller stage m happened).turn caller stage' m' happened' =
      d.turn caller stage' m' (happened' ++ happened) := by
  have stages : (fun k => if k = caller then stage' else
      if k = caller then stage else d.stage k) = fun k => if k = caller then stage' else d.stage k := by
    funext k
    split <;> rfl
  simp only [turn, stages, List.append_assoc]

private theorem steps_turn {stage stage' : Stage} {m m' : Managed} {happened : List Happening}
    (before : Steps d (d.turn caller stage m [])) (next : Advance caller m stage stage' m' happened) :
    Steps d (d.turn caller stage' m' happened) := by
  have now : (d.turn caller stage m []).stage caller = stage := if_pos rfl
  have step : Step (d.turn caller stage m []) ((d.turn caller stage m []).turn caller stage' m'
      happened) := .advance caller (by rw [now]; exact next)
  rw [turn_turn, List.append_nil] at step
  exact .step before step

private theorem steps_finished {stage : Stage} {m m' : Managed} {happening : Happening}
    (before : Steps d (d.turn caller stage m [])) (finishes : Finishes caller m stage m' happening) :
    Steps d (d.turn caller .idle m' [happening]) := by
  induction finishes with
  | last next => exact steps_turn before next
  | more next _ ih => exact ih (steps_turn before next)

/-- A call that nobody interrupts is one way to take its steps. -/
theorem steps_called {key : String} {v : Vendor} {build : QuerySet → Action Store QuerySet}
    {m : Managed} {happening : Happening} (idle : d.stage caller = .idle)
    (called : Called caller key v build d.managed m happening) :
    Steps d (d.turn caller .idle m [happening]) := by
  have begins {stage : Stage} {happened : List Happening}
      (next : Advance caller d.managed .idle stage d.managed happened) :
      Steps d (d.turn caller stage d.managed happened) :=
    .step .none (.advance caller (by rw [idle]; exact next))
  cases called with
  | hit found => exact begins (.hit found)
  | miss missing finishes => exact steps_finished (begins (.miss missing)) finishes

end
end Desk

/-- A call looks its key up, or builds, prepares and keeps. -/
theorem Manager.exec_getOrPrepare (key : String) (v : Vendor)
    (build : QuerySet → Action Store QuerySet) (m : Managed) (j : Journal) :
    (getOrPrepare key v build).exec m j = match m.manager.find? key v with
      | some found => ((.ok found, m), j)
      | none => match (QuerySet.ofModel m.manager.model >>= build).exec m.store j with
        | ((.error failure, t), j') => ((.error failure, { m with store := t }), j')
        | ((.ok built, t), j') => match (built.prepareFor v).exec t j' with
          | ((.error failure, t'), j'') => ((.error failure, { m with store := t' }), j'')
          | ((.ok s, t'), j'') =>
            ((.ok (m.manager.keep key v s).1, ⟨t', (m.manager.keep key v s).2⟩),
              j'' ++ [⟨.debug, "Prepared `" ++ key ++ "` for " ++ v.name ++ ": "
                ++ (s.compiled?.map (·.artifact.name)).getD ""⟩]) := by
  unfold getOrPrepare
  rw [exec_bind, exec_get]
  dsimp only
  cases m.manager.find? key v with
  | some found => rfl
  | none =>
    dsimp only
    generalize QuerySet.ofModel m.manager.model >>= build = a
    rw [exec_bind, withStore, exec_zoom]
    rcases a.exec m.store j with ⟨⟨failure | built, t⟩, j'⟩
    · rfl
    · dsimp only
      rw [exec_bind, withStore, exec_zoom]
      dsimp only
      rcases (built.prepareFor v).exec t j' with ⟨⟨failure | s, t'⟩, j''⟩
      · rfl
      · rfl

namespace Desk

section
variable {d : Desk} {caller : Nat}

/-- What a call comes to that nobody interrupts, and builds in the way that is handed to it; when
it fails, the manager is as it was. -/
def Alone (d : Desk) (caller : Nat) (key : String) (v : Vendor)
    (build : QuerySet → Action Store QuerySet) :
    (Except Failure QuerySet × Managed) × Journal → Prop
  | ((.ok s, m), _) => Called caller key v build d.managed m (.answered caller key v s) ∧
      Steps d (d.turn caller .idle m [.answered caller key v s])
  | ((.error failure, m), _) => m.manager = d.managed.manager ∧
      Called caller key v build d.managed m (.failed caller key v failure) ∧
      Steps d (d.turn caller .idle m [.failed caller key v failure])

theorem call_alone (idle : d.stage caller = .idle) (key : String) (v : Vendor)
    (build : QuerySet → Action Store QuerySet) (j : Journal) :
    Alone d caller key v build ((Manager.getOrPrepare key v build).exec d.managed j) := by
  rw [Manager.exec_getOrPrepare]
  cases found : d.managed.manager.find? key v with
  | some s =>
    have called : Called caller key v build d.managed _ _ := .hit found
    exact ⟨called, steps_called idle called⟩
  | none =>
    dsimp only
    rcases ran : (QuerySet.ofModel d.managed.manager.model >>= build).exec d.managed.store j with
      ⟨⟨failure | built, t⟩, j'⟩
    · have called : Called caller key v build d.managed _ _ := .miss found (.last (.buildFails ran))
      exact ⟨rfl, called, steps_called idle called⟩
    · dsimp only
      rcases prepared : (built.prepareFor v).exec t j' with ⟨⟨failure | s, t'⟩, j''⟩
      · have called : Called caller key v build d.managed _ _ :=
          .miss found (.more (.build ran) (.last (.prepareFails prepared)))
        exact ⟨rfl, called, steps_called idle called⟩
      · have called : Called caller key v build d.managed _ _ :=
          .miss found (.more (.build ran) (.more (.prepare prepared) (.last .keep)))
        exact ⟨called, steps_called idle called⟩

end

/-- A manager hands out one query set for a key and a database. -/
structure HandsOutOne (d : Desk) : Prop where
  /-- Two answers for a key and a database are one, unless the manager was cleared between
  them. -/
  agree : ∀ later between earlier caller caller' key v s s', d.history =
    later ++ .answered caller' key v s' :: (between ++ .answered caller key v s :: earlier) →
      .cleared ∉ between → s' = s
  prepared : ∀ caller key v s, .answered caller key v s ∈ d.history → s.PreparedFor v
  /-- No step of a call changes what is kept before the call answers; so one that fails
  changes nothing. -/
  silent : ∀ caller stage m happened, Advance caller d.managed (d.stage caller) stage m happened →
    (∀ key v s, .answered caller key v s ∉ happened) → m.manager = d.managed.manager
  /-- An answer leaves alone what is kept for other keys and databases. -/
  others : ∀ caller stage m happened, Advance caller d.managed (d.stage caller) stage m happened →
    ∀ key v, (∀ s, .answered caller key v s ∉ happened) →
      m.manager.find? key v = d.managed.manager.find? key v
  /-- A call that nobody interrupts takes the steps of a call that builds in its way. -/
  calls : ∀ caller, d.stage caller = .idle → ∀ key v build j,
    Alone d caller key v build ((Manager.getOrPrepare key v build).exec d.managed j)

/-- However calls fall together, the manager hands out one query set for a key and a
database. -/
theorem handsOutOne_of_reachable {d : Desk} (reachable : Reachable d) : HandsOutOne d := by
  have orderly := orderly_of_reachable reachable
  exact {
    agree := by
      intro later between earlier caller caller' key v s s' same kept
      have consistent := orderly.consistent
      rw [same] at consistent
      cases consistent_behind consistent with
      | answered before repeats _ => exact repeats s (standing_of_answered before kept)
    prepared := fun _ _ _ _ answered => prepared_of_consistent orderly.consistent answered
    silent := fun _ _ _ _ next => advance_manager next
    others := fun _ _ _ _ next _ _ => advance_find? next
    calls := fun _ idle key v build j => call_alone idle key v build j }

section
open Library

/-- All authors, as the first caller builds them and as the second one does. -/
private def builtBy (caller : Nat) : Query :=
  { Query.ofModel Author.model with memo := caller }

private theorem builtBy_compiles (caller : Nat) (j : Journal) : ∃ a j',
    (Prepared.compile .postgres (builtBy caller)).exec .empty j = ((.ok a, .empty), j') := by
  have walked : ((builtBy caller).walk Prepared.resolver).exec .empty j = ((.ok (), .empty), j) := rfl
  refine Prepared.compile_total (fun p occurs => ?_) rfl walked fun p member => ?_
  · cases occurs
  · cases member

/-- Two callers ask for all authors, find nothing, and prepare what each of them has built.
What the first one prepared is answered to both. -/
theorem twoCallers_handedOne : ∃ d s, Reachable d ∧ d.history =
    [.answered 1 "all" .postgres s, .answered 0 "all" .postgres s] ∧ HandsOutOne d := by
  obtain ⟨a, j, compiled⟩ := builtBy_compiles 0 []
  obtain ⟨a', j', compiled'⟩ := builtBy_compiles 1 []
  have none : Reachable { managed := ⟨{}, { model := Author.model }⟩ } := ⟨_, _, .none⟩
  have next {d d' : Desk} (reachable : Reachable d) (step : Step d d') : Reachable d' := by
    obtain ⟨store, model, steps⟩ := reachable
    exact ⟨store, model, .step steps step⟩
  have missed := next (next none (.advance 0 (@Advance.miss 0 _ "all" .postgres pure rfl)))
    (.advance 1 (@Advance.miss 1 _ "all" .postgres pure rfl))
  have built := next (next missed (.advance 0 (.build (j := []) rfl)))
    (.advance 1 (.build (j := []) rfl))
  have made := next (next built (.advance 0 (.prepare
    (QuerySet.exec_prepareFor_compiled (q := builtBy 0) rfl compiled)))) (.advance 1 (.prepare
      (QuerySet.exec_prepareFor_compiled (q := builtBy 1) rfl compiled')))
  have kept := next (next made (.advance 0 .keep)) (.advance 1 .keep)
  exact ⟨_, _, kept, rfl, handsOutOne_of_reachable kept⟩

end

end Desk

end PreparedSql
