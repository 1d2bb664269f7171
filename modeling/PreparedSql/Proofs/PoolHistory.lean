import PreparedSql.Session.Handle

/-! What is remembered of connections that share a pool: which statements were
sent and prepared on which of them, and when the pool was made to forget. A
history is lawful when nothing is executed that was not prepared, and nothing is
prepared twice. -/
namespace PreparedSql

/-- What happens on connections and to their pool. -/
inductive Event where
  /-- PREPARE is sent. -/
  | prepare (h : Handle) (name : String)
  /-- PREPARE succeeded. -/
  | prepared (h : Handle) (name : String)
  /-- EXECUTE is sent. -/
  | execute (h : Handle) (name : String)
  | closed (h : Handle)
  | cleared
  deriving DecidableEq

namespace History

/-! ### Statements that stand -/

/-- What an event makes of a statement that stands or does not: a statement
stands from when it is prepared on until the pool forgets it. -/
def standsAfter (h : Handle) (name : String) (stands : Bool) : Event → Bool
  | .prepared k other => stands || (k == h && other == name)
  | .closed k => stands && k != h
  | .cleared => false
  | .prepare _ _ | .execute _ _ => stands

/-- The statement was prepared, and the pool was not made to forget it since. -/
def Stands (history : List Event) (h : Handle) (name : String) : Prop :=
  history.foldl (standsAfter h name) false = true

section
variable {history : List Event} {h k : Handle} {name other : String}

@[simp] theorem stands_prepare :
    Stands (history ++ [.prepare k other]) h name ↔ Stands history h name := by
  simp [Stands, standsAfter]

@[simp] theorem stands_execute :
    Stands (history ++ [.execute k other]) h name ↔ Stands history h name := by
  simp [Stands, standsAfter]

@[simp] theorem stands_prepared :
    Stands (history ++ [.prepared k other]) h name ↔
      Stands history h name ∨ k = h ∧ other = name := by
  simp [Stands, standsAfter]

@[simp] theorem stands_closed :
    Stands (history ++ [.closed k]) h name ↔ Stands history h name ∧ k ≠ h := by
  simp [Stands, standsAfter]

@[simp] theorem stands_cleared : ¬ Stands (history ++ [.cleared]) h name := by
  simp [Stands, standsAfter]

end

private theorem foldl_stands {history : List Event} {h : Handle} {name : String} {stands : Bool}
    (standing : history.foldl (standsAfter h name) stands = true) :
    stands = true ∨ .prepared h name ∈ history := by
  induction history generalizing stands with
  | nil => exact .inl standing
  | cons e rest ih =>
    rcases ih standing with before | later
    · cases e with
      | prepared k other =>
        simp only [standsAfter, Bool.or_eq_true, Bool.and_eq_true, beq_iff_eq] at before
        rcases before with before | ⟨rfl, rfl⟩
        · exact .inl before
        · exact .inr List.mem_cons_self
      | closed k =>
        simp only [standsAfter, Bool.and_eq_true] at before
        exact .inl before.1
      | cleared => cases before
      | prepare k other => exact .inl before
      | execute k other => exact .inl before
    · exact .inr (List.mem_cons_of_mem _ later)

/-- A statement that stands was prepared. -/
theorem prepared_of_stands {history : List Event} {h : Handle} {name : String}
    (stands : Stands history h name) : .prepared h name ∈ history := by
  rcases foldl_stands stands with never | prepared
  · cases never
  · exact prepared

private theorem foldl_forgotten {after : List Event} {h : Handle} {name : String}
    (fallen : ¬ after.foldl (standsAfter h name) true = true) :
    .closed h ∈ after ∨ .cleared ∈ after := by
  induction after with
  | nil => exact absurd rfl fallen
  | cons e rest ih =>
    have later (kept : standsAfter h name true e = true) :
        .closed h ∈ e :: rest ∨ .cleared ∈ e :: rest := by
      rw [List.foldl_cons, kept] at fallen
      rcases ih fallen with closed | cleared
      · exact .inl (List.mem_cons_of_mem _ closed)
      · exact .inr (List.mem_cons_of_mem _ cleared)
    cases e with
    | closed k =>
      by_cases same : k = h
      · rw [same]
        exact .inl List.mem_cons_self
      · exact later (by simpa [standsAfter] using same)
    | cleared => exact .inr List.mem_cons_self
    | prepared k other => exact later rfl
    | prepare k other => exact later rfl
    | execute k other => exact later rfl

/-- A statement that was prepared and stands no more was forgotten. -/
theorem forgotten_of_not_stands {before after : List Event} {h : Handle} {name : String}
    (fallen : ¬ Stands (before ++ .prepared h name :: after) h name) :
    .closed h ∈ after ∨ .cleared ∈ after := by
  have fell : ¬ after.foldl (standsAfter h name) true = true := by
    simpa [Stands, standsAfter] using fallen
  exact foldl_forgotten fell

/-! ### Laws -/

/-- Every EXECUTE comes after a PREPARE that succeeded on its connection. -/
def ExecutesPrepared (history : List Event) : Prop :=
  ∀ (i : Nat) (h : Handle) (name : String), history[i]? = some (Event.execute h name) →
    ∃ j : Nat, j < i ∧ history[j]? = some (Event.prepared h name)

/-- After a PREPARE that succeeded, another one is sent on the connection only
when the pool was made to forget between the two. -/
def PreparesOnce (history : List Event) : Prop :=
  ∀ (i j : Nat) (h : Handle) (name : String), i < j → history[i]? = some (Event.prepared h name) →
    history[j]? = some (Event.prepare h name) →
    ∃ k : Nat, i < k ∧ k < j ∧
      (history[k]? = some (Event.closed h) ∨ history[k]? = some Event.cleared)

private theorem getElem?_concat {history : List Event} {e x : Event} {i : Nat}
    (found : (history ++ [e])[i]? = some x) :
    i < history.length ∧ history[i]? = some x ∨ i = history.length ∧ e = x := by
  by_cases inside : i < history.length
  · rw [List.getElem?_append_left inside] at found
    exact .inl ⟨inside, found⟩
  · have last := (List.getElem?_eq_some_iff.mp found).1
    rw [List.length_append, List.length_singleton] at last
    obtain rfl : i = history.length := by omega
    exact .inr ⟨rfl, by simpa using found⟩

private theorem getElem?_kept {history : List Event} {x : Event} {i : Nat} (e : Event)
    (found : history[i]? = some x) : (history ++ [e])[i]? = some x := by
  rw [List.getElem?_append_left (List.getElem?_eq_some_iff.mp found).1]
  exact found

private theorem getElem?_of_mem_drop {history : List Event} {x : Event} {i : Nat}
    (member : x ∈ history.drop (i + 1)) : ∃ k, i < k ∧ history[k]? = some x := by
  obtain ⟨n, found⟩ := List.mem_iff_getElem?.mp member
  rw [List.getElem?_drop] at found
  exact ⟨i + 1 + n, by omega, found⟩

theorem executesPrepared_concat {history : List Event} {e : Event}
    (lawful : ExecutesPrepared history)
    (ready : ∀ h name, e = .execute h name → .prepared h name ∈ history) :
    ExecutesPrepared (history ++ [e]) := by
  intro i h name found
  rcases getElem?_concat found with ⟨_, old⟩ | ⟨rfl, new⟩
  · obtain ⟨j, earlier, prepared⟩ := lawful i h name old
    exact ⟨j, earlier, getElem?_kept e prepared⟩
  · obtain ⟨j, prepared⟩ := List.mem_iff_getElem?.mp (ready h name new)
    exact ⟨j, (List.getElem?_eq_some_iff.mp prepared).1, getElem?_kept e prepared⟩

/-- A statement that was prepared and stands no more was forgotten after that. -/
private theorem forgotten_after {history : List Event} {h : Handle} {name : String} {i : Nat}
    (prepared : history[i]? = some (.prepared h name)) (fallen : ¬ Stands history h name) :
    ∃ k, i < k ∧ (history[k]? = some (.closed h) ∨ history[k]? = some .cleared) := by
  obtain ⟨inside, here⟩ := List.getElem?_eq_some_iff.mp prepared
  have split : history = history.take i ++ .prepared h name :: history.drop (i + 1) := by
    rw [← here, ← List.drop_eq_getElem_cons inside, List.take_append_drop]
  rw [split] at fallen
  rcases forgotten_of_not_stands fallen with closed | cleared
  · obtain ⟨k, after, found⟩ := getElem?_of_mem_drop closed
    exact ⟨k, after, .inl found⟩
  · obtain ⟨k, after, found⟩ := getElem?_of_mem_drop cleared
    exact ⟨k, after, .inr found⟩

theorem preparesOnce_concat {history : List Event} {e : Event} (lawful : PreparesOnce history)
    (fresh : ∀ h name, e = .prepare h name → ¬ Stands history h name) :
    PreparesOnce (history ++ [e]) := by
  intro i j h name earlier prepared sent
  rcases getElem?_concat sent with ⟨inside, old⟩ | ⟨rfl, new⟩
  · have before : history[i]? = some (.prepared h name) := by
      rw [List.getElem?_append_left (by omega)] at prepared
      exact prepared
    obtain ⟨k, after, early, closed | cleared⟩ := lawful i j h name earlier before old
    · exact ⟨k, after, early, .inl (getElem?_kept e closed)⟩
    · exact ⟨k, after, early, .inr (getElem?_kept e cleared)⟩
  · rw [List.getElem?_append_left earlier] at prepared
    obtain ⟨k, after, closed | cleared⟩ := forgotten_after prepared (fresh h name new)
    · have early := (List.getElem?_eq_some_iff.mp closed).1
      exact ⟨k, after, early, .inl (getElem?_kept e closed)⟩
    · have early := (List.getElem?_eq_some_iff.mp cleared).1
      exact ⟨k, after, early, .inr (getElem?_kept e cleared)⟩

end History

end PreparedSql
