import Mathlib.Data.List.Forall2
import PreparedSql.Action

/-! What the steps of an action do to the outcome, the state and the journal.
An action that succeeds went through every one of its steps. -/
namespace PreparedSql

/-! ### Outcomes -/

namespace Outcome

variable {ε α β : Type} {f : α → Except ε β}

/-- Of two steps that may fail, both succeed when the second does. -/
theorem bind_ok {a : Except ε α} {y : β} : (a >>= f) = .ok y ↔ ∃ x, a = .ok x ∧ f x = .ok y := by
  cases a with
  | error failure =>
    constructor
    · intro run
      cases run
    · rintro ⟨_, none, _⟩
      cases none
  | ok x =>
    constructor
    · intro run
      exact ⟨x, rfl, run⟩
    · rintro ⟨_, same, run⟩
      cases same
      exact run

/-- A list is mapped item by item. -/
theorem mapM_ok_iff {xs : List α} {ys : List β} :
    xs.mapM f = .ok ys ↔ List.Forall₂ (fun x y => f x = .ok y) xs ys := by
  induction xs generalizing ys with
  | nil =>
    rw [List.forall₂_nil_left_iff]
    exact ⟨fun mapped => by cases mapped; rfl, fun none => by rw [none]; rfl⟩
  | cons x xs ih =>
    rw [List.mapM_cons]
    constructor
    · intro mapped
      obtain ⟨y, first, rest⟩ := bind_ok.mp mapped
      obtain ⟨zs, others, answer⟩ := bind_ok.mp rest
      cases answer
      exact .cons first (ih.mp others)
    · rintro (_ | ⟨first, others⟩)
      exact bind_ok.mpr ⟨_, first, bind_ok.mpr ⟨_, ih.mpr others, rfl⟩⟩

/-- What a list is mapped to is as long, and each of it comes of the item at its place. -/
theorem mapM_ok {xs : List α} {ys : List β} (mapped : xs.mapM f = .ok ys) :
    ys.length = xs.length ∧ ∀ (i : Nat) (x : α), xs[i]? = some x → ∃ y, ys[i]? = some y ∧ f x = .ok y := by
  induction xs generalizing ys with
  | nil =>
    cases mapped
    exact ⟨rfl, fun i x none => by cases none⟩
  | cons x xs ih =>
    rw [List.mapM_cons] at mapped
    obtain ⟨y, first, rest⟩ := bind_ok.mp mapped
    obtain ⟨zs, others, answer⟩ := bind_ok.mp rest
    cases answer
    obtain ⟨length, each⟩ := ih others
    refine ⟨by rw [List.length_cons, List.length_cons, length], fun i x' found => ?_⟩
    cases i with
    | zero =>
      cases found
      exact ⟨y, rfl, first⟩
    | succ i => exact each i x' found

/-- What a list is mapped to comes of its items. -/
theorem mem_of_mapM {xs : List α} {ys : List β} (mapped : xs.mapM f = .ok ys) :
    ∀ y ∈ ys, ∃ x ∈ xs, f x = .ok y := by
  intro y member
  obtain ⟨length, each⟩ := mapM_ok mapped
  obtain ⟨i, inside, rfl⟩ := List.getElem_of_mem member
  rw [length] at inside
  obtain ⟨y, found, one⟩ := each i _ (List.getElem?_eq_getElem inside)
  obtain ⟨_, rfl⟩ := List.getElem?_eq_some_iff.mp found
  exact ⟨_, List.getElem_mem inside, one⟩

/-- A list is mapped when every item of it is. -/
theorem mapM_each {g : α → β} {xs : List α} (each : ∀ x ∈ xs, f x = .ok (g x)) :
    xs.mapM f = .ok (xs.map g) := by
  induction xs with
  | nil => rfl
  | cons x xs ih =>
    have head := each x List.mem_cons_self
    have tail := ih fun y member => each y (List.mem_cons_of_mem _ member)
    rw [List.mapM_cons, head, tail]
    rfl

/-- Of two steps, the first fails or the second does. -/
theorem bind_error {a : Except ε α} {failure : ε} (failed : (a >>= f) = .error failure) :
    a = .error failure ∨ ∃ x, a = .ok x ∧ f x = .error failure := by
  cases a with
  | error other =>
    cases failed
    exact .inl rfl
  | ok x => exact .inr ⟨x, rfl, failed⟩

/-- When a list cannot be mapped, one of its items cannot. -/
theorem mapM_error {xs : List α} {failure : ε} (failed : xs.mapM f = .error failure) :
    ∃ x ∈ xs, f x = .error failure := by
  induction xs with
  | nil => cases failed
  | cons x xs ih =>
    rw [List.mapM_cons] at failed
    rcases bind_error failed with first | ⟨y, _, rest⟩
    · exact ⟨x, List.mem_cons_self, first⟩
    · rcases bind_error rest with others | ⟨ys, _, answer⟩
      · obtain ⟨x', member, one⟩ := ih others
        exact ⟨x', List.mem_cons_of_mem x member, one⟩
      · cases answer

/-- What is kept of a list comes of its items. -/
theorem mem_of_filterMapM {f : α → Except ε (Option β)} {xs : List α} {ys : List β}
    (kept : xs.filterMapM f = .ok ys) : ∀ y ∈ ys, ∃ x ∈ xs, f x = .ok (some y) := by
  induction xs generalizing ys with
  | nil =>
    cases kept
    exact fun y none => nomatch none
  | cons x xs ih =>
    rw [List.filterMapM_cons] at kept
    obtain ⟨found, first, rest⟩ := bind_ok.mp kept
    have later {zs : List β} (others : xs.filterMapM f = .ok zs) :
        ∀ y ∈ zs, ∃ x' ∈ x :: xs, f x' = .ok (some y) := by
      intro y member
      obtain ⟨x', inside, one⟩ := ih others y member
      exact ⟨x', List.mem_cons_of_mem x inside, one⟩
    cases found with
    | none => exact later rest
    | some y =>
      obtain ⟨zs, others, answer⟩ := bind_ok.mp rest
      cases answer
      exact List.forall_mem_cons.mpr ⟨⟨x, List.mem_cons_self, first⟩, later others⟩

/-- All steps of a list succeed when each of them does. -/
theorem forM_ok {step : α → Except ε Unit} {xs : List α} :
    xs.forM step = .ok () ↔ ∀ x ∈ xs, step x = .ok () := by
  induction xs with
  | nil => exact ⟨fun _ x member => (List.not_mem_nil member).elim, fun _ => rfl⟩
  | cons x xs ih =>
    rw [List.forall_mem_cons, ← ih]
    constructor
    · intro run
      obtain ⟨⟨⟩, first, rest⟩ := bind_ok.mp run
      exact ⟨first, rest⟩
    · rintro ⟨first, rest⟩
      exact bind_ok.mpr ⟨(), first, rest⟩

/-- When the steps of a list fail, one of them does. -/
theorem forM_error {step : α → Except ε Unit} {xs : List α} {failure : ε}
    (failed : xs.forM step = .error failure) : ∃ x ∈ xs, step x = .error failure := by
  induction xs with
  | nil => cases failed
  | cons x xs ih =>
    rcases bind_error failed with first | ⟨_, _, rest⟩
    · exact ⟨x, List.mem_cons_self, first⟩
    · obtain ⟨x', member, one⟩ := ih rest
      exact ⟨x', List.mem_cons_of_mem x member, one⟩

end Outcome

/-! ### Actions -/

namespace Action

variable {σ τ α β : Type} {s : σ} {j : Journal}

theorem exec_bind (a : Action σ α) (f : α → Action σ β) (s : σ) (j : Journal) :
    (a >>= f).exec s j = match a.exec s j with
      | ((.ok x, s'), j') => (f x).exec s' j'
      | ((.error failure, s'), j') => ((.error failure, s'), j') := by
  simp only [exec, ExceptT.run_bind, StateT.run_bind]
  rcases (a.run.run s).run j with ⟨⟨failure | x, s'⟩, j'⟩ <;> rfl

@[simp] theorem exec_pure (x : α) : (pure x : Action σ α).exec s j = ((.ok x, s), j) := rfl

@[simp] theorem exec_throw (failure : Failure) :
    (throw failure : Action σ α).exec s j = ((.error failure, s), j) := rfl

@[simp] theorem exec_get : (get : Action σ σ).exec s j = ((.ok s, s), j) := rfl

@[simp] theorem exec_set (new : σ) :
    (set new : Action σ PUnit).exec s j = ((.ok ⟨⟩, new), j) := rfl

@[simp] theorem exec_modify (change : σ → σ) :
    (modify change : Action σ PUnit).exec s j = ((.ok ⟨⟩, change s), j) := rfl

@[simp] theorem exec_note (level : Level) (text : String) :
    (note level text : Action σ Unit).exec s j = ((.ok (), s), j ++ [⟨level, text⟩]) := rfl

@[simp] theorem exec_ofExcept (outcome : Except Failure α) :
    (ofExcept outcome : Action σ α).exec s j = ((outcome, s), j) := by
  cases outcome <;> rfl

theorem exec_map (f : α → β) (a : Action σ α) (s : σ) (j : Journal) :
    (f <$> a).exec s j = match a.exec s j with
      | ((outcome, s'), j') => ((outcome.map f, s'), j') := by
  simp only [exec, ExceptT.run_map, StateT.run_map]
  rcases (a.run.run s).run j with ⟨⟨failure | x, s'⟩, j'⟩ <;> rfl

theorem exec_attempt (a : Action σ α) (s : σ) (j : Journal) :
    a.attempt.exec s j = match a.exec s j with
      | ((outcome, s'), j') => ((.ok outcome, s'), j') := rfl

theorem exec_zoom (get : σ → τ) (put : τ → σ → σ) (a : Action τ α) (s : σ) (j : Journal) :
    (a.zoom get put).exec s j = match a.exec (get s) j with
      | ((outcome, part), j') => ((outcome, put part s), j') := rfl

theorem exec_separately (start : τ) (a : Action τ α) (s : σ) (j : Journal) :
    (separately start a).exec s j = match a.exec start j with
      | ((outcome, t), j') => ((outcome.map fun _ => t, s), j') := rfl

/-- An action on a state of its own answers that state and leaves the other alone. -/
theorem exec_separately_ok {start t : τ} {a : Action τ α} {s' : σ} {j' : Journal}
    (run : (separately start a).exec s j = ((.ok t, s'), j')) :
    ∃ x, a.exec start j = ((.ok x, t), j') ∧ s' = s := by
  rw [exec_separately] at run
  rcases inner : a.exec start j with ⟨⟨failure | x, t'⟩, j''⟩
  · rw [inner] at run
    cases run
  · rw [inner] at run
    cases run
    exact ⟨x, rfl, rfl⟩

/-- A sequence succeeds when its first step does and then its second. -/
theorem exec_bind_ok {a : Action σ α} {f : α → Action σ β} {y : β} {s'' : σ} {j'' : Journal} :
    (a >>= f).exec s j = ((.ok y, s''), j'') ↔
      ∃ x s' j', a.exec s j = ((.ok x, s'), j') ∧ (f x).exec s' j' = ((.ok y, s''), j'') := by
  rw [exec_bind]
  rcases a.exec s j with ⟨⟨failure | x, s'⟩, j'⟩
  · constructor
    · intro run
      cases run
    · rintro ⟨_, _, _, same, _⟩
      cases same
  · constructor
    · intro run
      exact ⟨x, s', j', rfl, run⟩
    · rintro ⟨_, _, _, same, run⟩
      cases same
      exact run

/-- A sequence fails where its first step does, or where its second does after that. -/
theorem exec_bind_error {a : Action σ α} {f : α → Action σ β} {failure : Failure} {s'' : σ}
    {j'' : Journal} (run : (a >>= f).exec s j = ((.error failure, s''), j'')) :
    a.exec s j = ((.error failure, s''), j'') ∨
      ∃ x s' j', a.exec s j = ((.ok x, s'), j') ∧
        (f x).exec s' j' = ((.error failure, s''), j'') := by
  rw [exec_bind] at run
  rcases first : a.exec s j with ⟨⟨other | x, s'⟩, j'⟩
  · rw [first] at run
    cases run
    exact .inl rfl
  · rw [first] at run
    exact .inr ⟨x, s', j', rfl, run⟩

/-! ### What any outcome keeps -/

variable {R : σ → σ → Prop}

/-- Whatever comes of the action, it takes the state along the relation. -/
def Moves (R : σ → σ → Prop) (a : Action σ α) : Prop :=
  ∀ s j, R s (a.exec s j).1.2

theorem moves_still {a : Action σ α} (refl : ∀ s, R s s) (still : ∀ s j, (a.exec s j).1.2 = s) :
    Moves R a := by
  intro s j
  rw [still]
  exact refl s

theorem moves_bind {a : Action σ α} {f : α → Action σ β}
    (trans : ∀ {x y z}, R x y → R y z → R x z) (first : Moves R a) (rest : ∀ x, Moves R (f x)) :
    Moves R (a >>= f) := by
  intro s j
  have moved := first s j
  rw [exec_bind]
  generalize a.exec s j = run at moved
  obtain ⟨⟨failure | x, s'⟩, j'⟩ := run
  · exact moved
  · exact trans moved (rest x s' j')

end Action

end PreparedSql
