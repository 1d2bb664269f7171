import Mathlib.Data.List.DropRight
import Mathlib.Data.List.Induction
import PreparedSql.Wire.PostgresStream

/-! Labels of the rows that a stream of the simple protocol yields. One message may bring the rows
of several commands, and the stream carries labels along from message to message. What a row is
labeled with is said here by looking back instead: at the messages since the last command was
complete, and at nothing before that. A label that outlived its command would name the values of
the next one by foreign columns, and no error would show it. -/
namespace PreparedSql.Postgres

namespace Message

def isComplete : Message → Bool
  | complete _ => true
  | _ => false

def described? : Message → Option (List String)
  | description names => some names
  | _ => none

def columns? : Message → Option (List String)
  | row names _ => some names
  | _ => none

end Message

variable {before ms : List Message} {m : Message} {names : List String}

/-! ### Looking back -/

/-- The messages of the command that is under way. -/
def underWay (before : List Message) : List Message :=
  before.rtakeWhile (!·.isComplete)

/-- The labels of the command that is under way: those of its latest description, or else the
columns of its first row. -/
def knownLabels (before : List Message) : Option (List String) :=
  ((underWay before).reverse.findSome? Message.described?).or
    ((underWay before).findSome? Message.columns?)

/-- What the stream yields for a message behind others. -/
def yielded? (before : List Message) : Message → Option Answer
  | .description _ => none
  | .row names cells => some (.row ⟨(knownLabels before).getD names, cells.map .unknown⟩)
  | .complete rows => some (.affected ⟨rows, none⟩)

/-- What it yields for messages that come through, each by what came before it. -/
def yielded (ms : List Message) : List Answer :=
  (ms.mapIdx fun i m => yielded? (ms.take i) m).filterMap id

theorem underWay_concat : underWay (before ++ [m]) =
    if m.isComplete then [] else underWay before ++ [m] := by
  rw [underWay, List.rtakeWhile_concat]
  cases m.isComplete <;> rfl

@[simp] theorem knownLabels_nil : knownLabels [] = none := rfl

theorem knownLabels_description :
    knownLabels (before ++ [.description names]) = some names := by
  simp [knownLabels, underWay_concat, Message.isComplete, Message.described?, List.findSome?_cons]

theorem knownLabels_row {cells : List (Option String)} :
    knownLabels (before ++ [.row names cells]) = some ((knownLabels before).getD names) := by
  cases described : (underWay before).reverse.findSome? Message.described? <;>
    cases first : (underWay before).findSome? Message.columns? <;>
    simp [knownLabels, underWay_concat, Message.isComplete, List.findSome?_append,
      List.findSome?_cons, described, first, Message.described?, Message.columns?]

theorem knownLabels_complete {rows : Nat} :
    knownLabels (before ++ [.complete rows]) = none := by
  simp [knownLabels, underWay_concat, Message.isComplete]

theorem yielded_concat (ms : List Message) (m : Message) :
    yielded (ms ++ [m]) = yielded ms ++ (yielded? ms m).toList := by
  have earlier : ms.mapIdx (fun i m' => yielded? ((ms ++ [m]).take i) m') =
      ms.mapIdx fun i m' => yielded? (ms.take i) m' := by
    rw [List.mapIdx_eq_mapIdx_iff]
    intro i inside
    rw [List.take_append_of_le_length (Nat.le_of_lt inside)]
  rw [yielded, List.mapIdx_concat, earlier, List.take_left, List.filterMap_append, yielded]
  cases yielded? ms m <;> rfl

/-! ### The stream -/

/-- The stream carries along what looking back would find. -/
theorem simpleAnswers_heard (heard : List Message) (rest : List (Except Failure Message)) :
    simpleAnswers none (heard.map .ok ++ rest) =
      (yielded heard).map .ok ++ simpleAnswers (knownLabels heard) rest := by
  induction heard using List.reverseRecOn generalizing rest with
  | nil => rfl
  | append_singleton heard m ih =>
    rw [List.map_append, List.append_assoc, ih, yielded_concat, List.map_append, List.append_assoc]
    congr 1
    cases m with
    | description names => rw [knownLabels_description]; rfl
    | row names cells => rw [knownLabels_row]; rfl
    | complete rows => rw [knownLabels_complete]; rfl

theorem simpleAnswers_through (heard : List Message) :
    simpleAnswers none (heard.map .ok) = (yielded heard).map .ok := by
  have whole := simpleAnswers_heard heard []
  rw [List.append_nil] at whole
  rw [whole, simpleAnswers, List.append_nil]

/-- The stream ends with its first failure. -/
theorem simpleAnswers_failed (heard : List Message) (failure : Failure)
    (later : List (Except Failure Message)) :
    simpleAnswers none (heard.map .ok ++ .error failure :: later) =
      (yielded heard).map .ok ++ [.error failure] := by
  rw [simpleAnswers_heard]
  rfl

/-- Behind the end of a command the stream is as at its start. -/
theorem simpleAnswers_complete (before : List Message) (rows : Nat)
    (later : List (Except Failure Message)) :
    simpleAnswers none (before.map .ok ++ .ok (.complete rows) :: later) =
      simpleAnswers none (before.map .ok) ++
        .ok (.affected ⟨rows, none⟩) :: simpleAnswers none later := by
  rw [simpleAnswers_heard, simpleAnswers_through]
  rfl

/-- Messages come through up to the first failure, if there is one. -/
theorem heard_or_failed (ms : List (Except Failure Message)) : ∃ heard : List Message,
    ms = heard.map .ok ∨ ∃ failure later, ms = heard.map .ok ++ .error failure :: later := by
  induction ms with
  | nil => exact ⟨[], .inl rfl⟩
  | cons message ms ih =>
    cases message with
    | error failure => exact ⟨[], .inr ⟨failure, ms, rfl⟩⟩
    | ok m =>
      obtain ⟨heard, rfl | ⟨failure, later, rfl⟩⟩ := ih
      · exact ⟨m :: heard, .inl rfl⟩
      · exact ⟨m :: heard, .inr ⟨failure, later, rfl⟩⟩

/-- Every message but a description yields one answer. -/
theorem length_yielded (heard : List Message) :
    (yielded heard).length = heard.countP (·.described?.isNone) := by
  induction heard using List.reverseRecOn with
  | nil => rfl
  | append_singleton heard m ih =>
    rw [yielded_concat, List.length_append, ih, List.countP_append]
    cases m <;> rfl

/-- Whatever messages and failures arrive, the stream yields one answer for each row and each end of
a command up to the first failure, and then the failure. A row is labeled by the latest description
of its own command, or else by the columns of the command's first row, and what is behind the end of
a command is answered as if the stream began there; every cell becomes a text of unknown kind, and
those without a text become NULL. -/
theorem rows_labeled_by_command :
    (∀ ms : List (Except Failure Message), ∃ heard : List Message,
      (yielded heard).length = heard.countP (·.described?.isNone) ∧
        (ms = heard.map .ok ∧ simpleAnswers none ms = (yielded heard).map .ok ∨
          ∃ failure later, ms = heard.map .ok ++ .error failure :: later ∧
            simpleAnswers none ms = (yielded heard).map .ok ++ [.error failure])) ∧
    (∀ (before : List Message) (rows : Nat) (later : List (Except Failure Message)),
      simpleAnswers none (before.map .ok ++ .ok (.complete rows) :: later) =
        simpleAnswers none (before.map .ok) ++
          .ok (.affected ⟨rows, none⟩) :: simpleAnswers none later) ∧
    ∀ cells : List (Option String),
      (cells.map Value.unknown).map Value.isNull = cells.map Option.isNone := by
  refine ⟨fun ms => ?_, simpleAnswers_complete, fun cells => List.map_map⟩
  obtain ⟨heard, rfl | ⟨failure, later, rfl⟩⟩ := heard_or_failed ms
  · exact ⟨heard, length_yielded heard, .inl ⟨rfl, simpleAnswers_through heard⟩⟩
  · exact ⟨heard, length_yielded heard,
      .inr ⟨failure, later, rfl, simpleAnswers_failed heard failure later⟩⟩

/-- The rows of the second command have labels of their own, also without a description. -/
example : simpleAnswers none
      [.ok (.description ["id"]), .ok (.row ["id"] [some "1"]), .ok (.complete 1),
        .ok (.row ["name"] [none]), .ok (.complete 1)] =
    [.ok (.row ⟨["id"], [.unknown (some "1")]⟩), .ok (.affected ⟨1, none⟩),
      .ok (.row ⟨["name"], [.unknown none]⟩), .ok (.affected ⟨1, none⟩)] := rfl

end PreparedSql.Postgres
