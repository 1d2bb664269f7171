import PreparedSql.Sql.Flavor

/-! Scanning a statement for what stands outside of its literals. A literal lies between single
quotes; a quote is doubled within it, and where backslashes escape, one takes along what stands
behind it. A text that hides marks has them within literals only, and ends outside of them, so
a statement that is cut at the marks is never cut within such a text. -/
namespace PreparedSql

/-- What may stand within a literal for something else: two quotes, or also a backslash and
the character behind it. -/
inductive Quoting where
  | standard
  | escaping
  deriving DecidableEq

/-- Where a scanner stands. -/
inductive Reading where
  | outside
  | inside
  /-- Behind a quote in a literal, which has ended unless another quote follows. -/
  | closing
  /-- Behind a backslash in a literal. -/
  | escaped

def Reading.isOutside : Reading → Bool
  | outside | closing => true
  | inside | escaped => false

namespace Quoting

variable {q : Quoting} {r : Reading} {mark : Char → Bool} {c : Char} {cs ds : List Char}

def step (q : Quoting) : Reading → Char → Reading
  | .outside, c | .closing, c => if c = '\'' then .inside else .outside
  | .inside, c =>
    if c = '\'' then .closing
    else if q = .escaping ∧ c = '\\' then .escaped
    else .inside
  | .escaped, _ => .inside

def run (q : Quoting) (r : Reading) (cs : List Char) : Reading :=
  cs.foldl q.step r

/-- The characters, each with whether it stands outside of literals; quotes never do. -/
def places (q : Quoting) : Reading → List Char → List (Char × Bool)
  | _, [] => []
  | r, c :: cs => (c, r.isOutside && c != '\'') :: q.places (q.step r c) cs

/-- The parts of a text between those marks that stand outside of literals. -/
def cut (q : Quoting) (mark : Char → Bool) (cs : List Char) : List (List Char) :=
  ((q.places .outside cs).splitOnP fun place => place.2 && mark place.1).map (List.map Prod.fst)

theorem run_append : q.run r (cs ++ ds) = q.run (q.run r cs) ds :=
  List.foldl_append

theorem places_append : q.places r (cs ++ ds) = q.places r cs ++ q.places (q.run r cs) ds := by
  induction cs generalizing r with
  | nil => rfl
  | cons c cs ih =>
    rw [List.cons_append, places, ih]
    rfl

@[simp] theorem map_places : (q.places r cs).map Prod.fst = cs := by
  induction cs generalizing r with
  | nil => rfl
  | cons c cs ih => rw [places, List.map_cons, ih]

/-- Behind a literal the scanner goes on as if there had been none, unless there is a quote. -/
theorem step_of_outside (out : r.isOutside = true) (bare : c ≠ '\'') : q.step r c = .outside := by
  cases r with
  | outside | closing => exact if_neg bare
  | inside | escaped => cases out

theorem places_of_outside (out : r.isOutside = true) (bare : c ≠ '\'') :
    q.places r (c :: cs) = (c, true) :: q.places .outside cs := by
  rw [places, step_of_outside out bare, out]
  simp [bare]

/-! ### Texts that hide marks -/

/-- The marks in the text stand within literals, the last of which has ended. -/
structure Hides (q : Quoting) (mark : Char → Bool) (cs : List Char) : Prop where
  ends : (q.run .outside cs).isOutside = true
  hidden : ∀ c, (c, true) ∈ q.places .outside cs → mark c = false

theorem hides_nil : q.Hides mark [] :=
  ⟨rfl, fun _ none => by cases none⟩

/-- A text goes on behind a literal with any character but a quote. -/
theorem hides_append (front : q.Hides mark cs) (bare : c ≠ '\'') (unmarked : mark c = false)
    (back : q.Hides mark ds) : q.Hides mark (cs ++ c :: ds) := by
  constructor
  · rw [run_append]
    show (q.run (q.step (q.run .outside cs) c) ds).isOutside = true
    rw [step_of_outside front.ends bare]
    exact back.ends
  · intro d member
    rw [places_append, places_of_outside front.ends bare, List.mem_append, List.mem_cons] at member
    rcases member with before | same | behind
    · exact front.hidden d before
    · cases same
      exact unmarked
    · exact back.hidden d behind

theorem hides_cons (bare : c ≠ '\'') (unmarked : mark c = false) (back : q.Hides mark cs) :
    q.Hides mark (c :: cs) :=
  hides_append hides_nil bare unmarked back

/-- A text without quotes and marks hides the marks, in front of any text that does. -/
theorem hides_text (plain : ∀ c ∈ cs, c ≠ '\'' ∧ mark c = false) (back : q.Hides mark ds) :
    q.Hides mark (cs ++ ds) := by
  induction cs with
  | nil => exact back
  | cons c cs ih =>
    obtain ⟨⟨bare, unmarked⟩, plain⟩ := List.forall_mem_cons.mp plain
    exact hides_cons bare unmarked (ih plain)

/-- What stands between two quotes, when the second of them ends the literal. -/
structure Shut (q : Quoting) (cs : List Char) : Prop where
  ends : q.run .inside cs = .inside
  hidden : ∀ c, (c, true) ∉ q.places .inside cs

theorem shut_append (front : q.Shut cs) (back : q.Shut ds) : q.Shut (cs ++ ds) := by
  constructor
  · rw [run_append, front.ends, back.ends]
  · intro c member
    rw [places_append, front.ends, List.mem_append] at member
    exact member.elim (front.hidden c) (back.hidden c)

/-- A text is shut when each character is written as something that is. -/
theorem shut_flatMap {α : Type} {write : α → List Char} {xs : List α}
    (each : ∀ x ∈ xs, q.Shut (write x)) : q.Shut (xs.flatMap write) := by
  induction xs with
  | nil => exact ⟨rfl, fun c none => by cases none⟩
  | cons x xs ih =>
    obtain ⟨first, others⟩ := List.forall_mem_cons.mp each
    rw [List.flatMap_cons]
    exact shut_append first (ih others)

theorem shut_singleton (bare : c ≠ '\'') (plain : q = .standard ∨ c ≠ '\\') : q.Shut [c] := by
  have unescaped : ¬ (q = .escaping ∧ c = '\\') := by
    rintro ⟨rfl, rfl⟩
    simp at plain
  constructor
  · show q.step .inside c = .inside
    rw [step, if_neg bare, if_neg unescaped]
  · simp [places, Reading.isOutside]

theorem shut_text (plain : ∀ c ∈ cs, c ≠ '\'' ∧ c ≠ '\\') : q.Shut cs := by
  have shut : q.Shut (cs.flatMap fun c => [c]) :=
    shut_flatMap fun c member => shut_singleton (plain c member).1 (.inr (plain c member).2)
  simpa using shut

/-- Two quotes stand for one within a literal. -/
theorem shut_quotes : q.Shut ['\'', '\''] :=
  ⟨rfl, by simp [places, Reading.isOutside]⟩

/-- A backslash takes along what stands behind it. -/
theorem shut_escape (c : Char) : escaping.Shut ['\\', c] :=
  ⟨rfl, by simp [places, step, Reading.isOutside]⟩

/-- A literal hides whatever stands in it. -/
theorem hides_literal (shut : q.Shut cs) : q.Hides mark ('\'' :: (cs ++ ['\''])) := by
  constructor
  · show (q.run .inside (cs ++ ['\''])).isOutside = true
    rw [run_append, shut.ends]
    rfl
  · intro c member
    have opened : q.places .outside ('\'' :: (cs ++ ['\''])) =
        ('\'', false) :: (q.places .inside cs ++ [('\'', false)]) := by
      rw [places]
      show ('\'', false) :: q.places .inside (cs ++ ['\'']) = _
      rw [places_append, shut.ends]
      rfl
    simp only [opened, List.mem_cons, List.mem_append, Prod.mk.injEq, Bool.true_eq_false, and_false,
      List.not_mem_nil, or_false, false_or] at member
    exact absurd member (shut.hidden c)

/-! ### Cutting -/

/-- Where the marks are hidden, none is met. -/
private theorem unmet_of_hides (hides : q.Hides mark cs) :
    ∀ place ∈ q.places .outside cs, (place.2 && mark place.1) = false := by
  rintro ⟨c, bare⟩ member
  cases bare with
  | false => rfl
  | true => exact hides.hidden c member

/-- A text that hides the marks is not cut. -/
theorem cut_hides (hides : q.Hides mark cs) : q.cut mark cs = [cs] := by
  rw [cut, List.splitOnP_eq_singleton (unmet_of_hides hides), List.map_singleton, map_places]

/-- A text that hides the marks is cut off at the mark behind it. -/
theorem cut_append (hides : q.Hides mark cs) (bare : c ≠ '\'') (marked : mark c = true) :
    q.cut mark (cs ++ c :: ds) = cs :: q.cut mark ds := by
  rw [cut, places_append, places_of_outside hides.ends bare,
    List.splitOnP_append_cons_of_forall_mem (unmet_of_hides hides) (c, true) marked,
    List.map_cons, map_places]
  rfl

end Quoting

end PreparedSql
