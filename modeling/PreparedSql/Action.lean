import PreparedSql.Failure.Basic

/-! Actions: steps that change a state, keep a journal and may fail. What was
changed and noted before a failure stays changed and noted. -/
namespace PreparedSql

inductive Level where
  | trace | debug | warn | error
  deriving DecidableEq, Repr

/-- One line of the journal. -/
structure Record where
  level : Level
  text : String
  deriving DecidableEq, Repr

/-- The lines noted so far, the oldest first. -/
abbrev Journal := List Record

abbrev Action (σ : Type) := ExceptT Failure (StateT σ (StateM Journal))

namespace Action

variable {σ τ α : Type}

def note (level : Level) (text : String) : Action σ Unit :=
  modifyThe Journal (· ++ [⟨level, text⟩])

/-- The outcome, the state and the journal of an action. -/
def exec (a : Action σ α) (s : σ) (journal : Journal) : (Except Failure α × σ) × Journal :=
  ((a.run).run s).run journal

/-- An action on a part of the state. -/
def zoom (get : σ → τ) (put : τ → σ → σ) (a : Action τ α) : Action σ α :=
  ExceptT.mk fun s journal =>
    let ((outcome, part), journal) := a.exec (get s) journal
    ((outcome, put part s), journal)

/-- An action on a state of its own; answers that state. A failure passes through. -/
def separately (start : τ) (a : Action τ α) : Action σ τ :=
  ExceptT.mk fun s journal =>
    let ((outcome, t), journal) := a.exec start journal
    ((outcome.map fun _ => t, s), journal)

/-- The action as one that does not fail. -/
def attempt (a : Action σ α) : Action σ (Except Failure α) :=
  ExceptT.mk (Functor.map Except.ok a.run)

/-- Fails with the failure, if there is one. -/
def ofExcept : Except Failure α → Action σ α
  | .ok x => pure x
  | .error f => throw f

/-- Wraps a failure in the activity it came up in. -/
def during (activity : Activity) (a : Action σ α) : Action σ α :=
  ExceptT.mk (Functor.map
    (fun
      | .ok x => .ok x
      | .error f => .error (.during activity f))
    a.run)

end Action

end PreparedSql
