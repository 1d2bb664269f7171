import PreparedSql.Action

/-! Trials: sequences of actions that end with the first expectation that is
not met. What was done until then stays done. -/
namespace PreparedSql.Library

/-- An expectation that was not met. -/
structure Unmet where
  expectation : String
  deriving DecidableEq, Repr

abbrev Trial (σ : Type) := ExceptT Unmet (StateT σ (StateM Journal))

namespace Trial

variable {σ α : Type}

/-- Expects that an action does not fail. -/
def expect (expectation : String) (a : Action σ α) : Trial σ α :=
  ExceptT.mk (Functor.map
    (fun
      | .ok x => .ok x
      | .error _ => .error ⟨expectation⟩)
    a.run)

/-- Expects that something holds. -/
def check (expectation : String) (holds : Bool) : Trial σ Unit :=
  if holds then pure () else throw ⟨expectation⟩

/-- Expects that an action fails, and for a cause of a kind. -/
def expectFailure (expectation : String) (a : Action σ α) (cause : Failure → Bool) :
    Trial σ Unit := do
  match ← (Action.attempt a).run with
  | .ok (.error f) => check expectation (cause f.cause)
  | _ => throw ⟨expectation⟩

end Trial

end PreparedSql.Library
