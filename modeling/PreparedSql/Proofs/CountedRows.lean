import PreparedSql.Proofs.ReversedRows

/-! Counting the rows of a query. A statement that counts is of one of two shapes: it makes one
row of all rows of its condition, which holds their number, or it asks for the rows of a
selection and counts those. The first may be taken only where the orderings and the projection
of the query settle nothing: with a window, or without duplicates, counting has to come after. -/
namespace PreparedSql

namespace Selection

variable {Row : Type} {db : Engine Row} {s : Selection} {table : List Row}

/-- The rows of the condition. -/
def admitted (db : Engine Row) (s : Selection) (table : List Row) : List Row :=
  table.filter fun r => s.condition.all (db.admits · r)

/-- Where duplicates are wanted, the projection has no say in what is kept. -/
theorem kept_of_duplicates (duplicates : s.distinct = false) :
    s.kept db table = s.admitted db table := by
  simp [kept, admitted, duplicates]

/-- The window settles how many of the rows are answered, whatever the order. -/
theorem length_of_answers (low : Nat) (high : Option Nat) {answer : List (List Value)}
    (from_ : s.low = .row low) (upTo : s.high = high.map .row)
    (answers : s.Answers db table answer) :
    answer.length = (rowsBetween low high (s.kept db table)).length := by
  obtain ⟨_, low', high', from_', upTo', ⟨rows, perm, _, rfl⟩, rfl⟩ := answers
  obtain rfl : low' = low := Bound.row.inj (from_'.symm.trans from_)
  have injective : Function.Injective Bound.row := fun _ _ => Bound.row.inj
  obtain rfl : high' = high := Option.map_injective injective (upTo'.symm.trans upTo)
  have arranged : (rows.map (s.shown db)).length = (s.kept db table).length := by
    rw [List.length_map, perm.length_eq]
  cases high' with
  | none => simp only [rowsBetween, List.length_drop, arranged]
  | some high => simp only [rowsBetween, List.length_take, List.length_drop, arranged]

/-- A selection whose window is in row numbers is answered. -/
theorem exists_answers (db : Engine Row) (table : List Row) (low : Nat) (high : Option Nat)
    (from_ : s.low = .row low) (upTo : s.high = high.map .row) :
    ∃ answer, s.Answers db table answer := by
  obtain ⟨whole, arranged⟩ := exists_arranges db s table
  exact ⟨_, whole, low, high, from_, upTo, arranged, rfl⟩

end Selection

/-- A statement that counts. -/
inductive Tally where
  /-- All rows of the condition become one, which holds their number. -/
  | rows (s : Selection)
  /-- The rows of a selection inside are counted. -/
  | answers (s : Selection)

namespace Tally

def write (f : Flavor) : Tally → List Piece
  | rows s => f.select { s with columns := [(.raw "COUNT(*)", none)] }
  | answers s =>
    .text "SELECT COUNT(*) FROM (" :: (f.select s ++ [.text (") AS " ++ f.identifier "subquery")])

/-- The numbers that the database may answer, one for each row. The one row that is made of all
cannot be sorted by what the others hold, and a window cuts it like any other. -/
def Counts {Row : Type} (db : Engine Row) (table : List Row) : Tally → List Nat → Prop
  | rows s, numbers => s.orderBy = [] ∧ ∃ low high, s.low = .row low ∧
      s.high = Option.map .row high ∧
      numbers = rowsBetween low high [(s.admitted db table).length]
  | answers s, numbers => ∃ answer, s.Answers db table answer ∧ numbers = [answer.length]

end Tally

namespace Query

variable {Row : Type} {db : Engine Row} {table : List Row} {q : Query}

/-- What is projected where the rows of the query are counted. -/
def toldApart (q : Query) : List (Expr × Option String) :=
  if q.distinct then q.projection else [(.column q.model.primaryKey, none)]

/-- How the rows of the query are counted. -/
def tally (q : Query) : Tally :=
  if q.isSliced || q.distinct then .answers (q.selection q.toldApart)
  else .rows { q.selection q.toldApart with orderBy := [] }

theorem countTemplate_eq (q : Query) (f : Flavor) :
    q.countTemplate f = .ofPieces (q.tally.write f) := by
  show Template.ofPieces (f.selectCount (q.selection q.toldApart)) = _
  unfold Flavor.selectCount tally
  have sliced : (q.selection q.toldApart).isSliced = q.isSliced := rfl
  have distinct : (q.selection q.toldApart).distinct = q.distinct := rfl
  rw [sliced, distinct]
  split <;> rfl

/-- The projection of the count keeps as many rows as that of the query: it is the same where
duplicates are told by it. -/
theorem kept_toldApart (q : Query) (db : Engine Row) (table : List Row) :
    (q.selection q.toldApart).kept db table = q.asked.kept db table := by
  cases duplicates : q.distinct with
  | true =>
    have same : q.toldApart = q.projection := if_pos duplicates
    rw [same, asked]
  | false =>
    rw [Selection.kept_of_duplicates duplicates, Selection.kept_of_duplicates duplicates]
    rfl

/-- A count inside answers how many rows the query has, since its window cuts as many. -/
theorem counts_answers (low : Nat) (high : Option Nat) {answer : List (List Value)}
    (from_ : q.low = .row low) (upTo : q.high = high.map .row)
    (answers : q.asked.Answers db table answer) (numbers : List Nat) :
    (Tally.answers (q.selection q.toldApart)).Counts db table numbers ↔
      numbers = [answer.length] := by
  have sameLength {counted : List (List Value)}
      (inside : (q.selection q.toldApart).Answers db table counted) :
      counted.length = answer.length := by
    rw [Selection.length_of_answers low high from_ upTo inside,
      Selection.length_of_answers low high from_ upTo answers, kept_toldApart]
  constructor
  · rintro ⟨counted, inside, rfl⟩
    rw [sameLength inside]
  · rintro rfl
    obtain ⟨counted, inside⟩ :=
      Selection.exists_answers (s := q.selection q.toldApart) db table low high from_ upTo
    exact ⟨counted, inside, by rw [sameLength inside]⟩

/-- Nothing is cut off a whole query with duplicates, so the rows of its condition are its
rows. -/
theorem counts_rows {answer : List (List Value)} (whole : q.isSliced = false)
    (duplicates : q.distinct = false) (answers : q.asked.Answers db table answer)
    (numbers : List Nat) :
    (Tally.rows { q.selection q.toldApart with orderBy := [] }).Counts db table numbers ↔
      numbers = [answer.length] := by
  obtain ⟨fromZero, noHigh⟩ := bounds_of_whole whole
  have length : answer.length = (q.asked.admitted db table).length := by
    rw [Selection.length_of_answers 0 none fromZero noHigh answers,
      Selection.kept_of_duplicates duplicates]
    rfl
  rw [length]
  constructor
  · rintro ⟨-, low, high, from_, upTo, rfl⟩
    obtain rfl : 0 = low := Bound.row.inj (fromZero.symm.trans from_)
    cases high with
    | none => rfl
    | some high => cases noHigh.symm.trans upTo
  · rintro rfl
    exact ⟨rfl, 0, none, fromZero, noHigh, rfl⟩

end Query

namespace Catalogue

open Library

/-- The authors by key, each shown once. -/
def keysOnce : Query :=
  { byKey with distinct := true, low := .row 1, high := some (.row 3) }

/-- A table in which the second author stands twice. -/
def repeated : List Author := [first, second, second]

end Catalogue

end PreparedSql
