import PreparedSql.Library.Author
import PreparedSql.Proofs.SliceClause
import PreparedSql.Proofs.Slicing
import PreparedSql.Proofs.WindowNumbers

/-! The window of a slice, as a server reads it. A slice whose ends are
parameters lets the server see the same rows as the slice whose ends are the
numbers that the parameters are given, though the clauses differ. -/
namespace PreparedSql

/-! ### Row numbers -/

/-- The greatest whole number with sign, at which row numbers stop. -/
def lastRow : Nat := IntKind.int64.greatest.toNat

/-- The rows from one number up to another. -/
def rowsBetween {α : Type} (low : Nat) (high : Option Nat) (rows : List α) : List α :=
  match high with
  | none => rows.drop low
  | some high => (rows.drop low).take (high - low)

namespace Bound

/-- The row number that the bound stands for. -/
def rowOf (number : Param → Nat) : Bound → Nat
  | row n => n
  | param p => number p

end Bound

namespace Prepared

/-- The cleaned values have one for the scalar: its row number. -/
def Counts (cleaned : CleanedArguments) (number : Param → Nat) (p : Param) : Prop :=
  p.isArray = false ∧
    ∃ n : Ranged .int64, n.value = number p ∧ valuesOf cleaned p.name = [.int .int64 (some n)]

/-- The parameter of the bound, if it has one, is registered and counts. -/
def Numbered (params : Registry) (cleaned : CleanedArguments) (number : Param → Nat) (b : Bound) :
    Prop :=
  ∀ p, b = .param p → params.byToken? p.token = some p ∧ Counts cleaned number p

/-- A clause shows the rows when its window leaves them, of no more rows than a
server can count. -/
def Shows (clause : String) (low : Nat) (high : Option Nat) : Prop :=
  ∃ w, Window.read? clause = some w ∧
    ∀ {α : Type} (rows : List α), rows.length ≤ lastRow → w.select rows = rowsBetween low high rows

theorem shows_whole : Shows "" 0 none :=
  ⟨{}, Window.read?_whole, fun _ _ => rfl⟩

theorem shows_offset (n : Nat) : Shows ("\nOFFSET " ++ toString n) n none :=
  ⟨_, Window.read?_offset n, fun _ _ => rfl⟩

theorem shows_greatest_limit (n : Nat) :
    Shows ("\nLIMIT 18446744073709551615 OFFSET " ++ toString n) n none := by
  have clause := Window.read?_limit_offset ' ' (by decide) 18446744073709551615 n
  refine ⟨_, clause, fun rows bounded => ?_⟩
  have all : (rows.drop n).length ≤ 18446744073709551615 := by
    have last : lastRow = 9223372036854775807 := rfl
    rw [List.length_drop]
    omega
  exact List.take_of_length_le all

theorem shows_limit (n : Nat) : Shows ("\nLIMIT " ++ toString n) 0 (some n) :=
  ⟨_, Window.read?_limit n, fun _ _ => rfl⟩

/-- A limit that leaves as many rows shows the same rows. -/
theorem shows_limit_offset {limit low high : Nat}
    (same : ∀ count ≤ lastRow, min limit (count - low) = min (high - low) (count - low)) :
    Shows ("\nLIMIT " ++ toString limit ++ "\nOFFSET " ++ toString low) low (some high) := by
  refine ⟨_, Window.read?_limit_offset '\n' (by decide) limit low, fun rows bounded => ?_⟩
  have counted := same rows.length bounded
  rw [← List.length_drop] at counted
  exact List.take_eq_take_iff.mpr counted

section
variable {params : Registry} {cleaned : CleanedArguments} {number : Param → Nat} {low b : Bound}

private theorem numberOf_rows (number : Param → Nat) (b : Bound) :
    b.numberOf (fun p => number p) = b.rowOf number := by
  cases b <;> rfl

/-- An offset alone; where it needs a limit, the limit is the greatest one. -/
private theorem offset_shows (f : Flavor) (low : Bound) :
    Shows (f.limits none (low.offsetOf fun p => number p)) (low.rowOf number) none := by
  by_cases zero : low.isZero
  · cases low with
    | row n =>
      obtain rfl : n = 0 := by simpa [Bound.isZero] using zero
      exact shows_whole
    | param p => cases zero
  · rw [Bound.offsetOf, if_neg zero, numberOf_rows]
    cases f with
    | generic | postgres => exact shows_offset _
    | mysql => exact shows_greatest_limit _

/-- The number of rows is counted up to the last row that there can be. -/
private theorem span_shows (f : Flavor) (low b : Bound) :
    Shows (f.limits (some (low.rowsUpTo (fun p => number p) b))
        (some (low.numberOf fun p => number p)))
      (low.rowOf number) (some (b.rowOf number)) := by
  have last : IntKind.int64.greatest = lastRow := rfl
  have counted : low.rowsUpTo (fun p => number p) b =
      (min (b.rowOf number) lastRow - min (low.rowOf number) lastRow : Nat) := by
    rw [Bound.rowsUpTo, numberOf_rows, numberOf_rows, last]
    omega
  have same : ∀ count ≤ lastRow,
      min (min (b.rowOf number) lastRow - min (low.rowOf number) lastRow)
        (count - low.rowOf number) =
      min (b.rowOf number - low.rowOf number) (count - low.rowOf number) := by
    intro count bounded
    omega
  rw [counted, numberOf_rows]
  exact shows_limit_offset same

/-- The window of a slice shows the rows between the numbers of its bounds. -/
theorem window_shows (f : Flavor) {high : Option Bound}
    (lowNumbered : Numbered params cleaned number low)
    (highNumbered : ∀ b ∈ high, Numbered params cleaned number b) :
    ∃ clause, Piece.fill (holeText f params cleaned) (f.window low high) = .ok clause ∧
      Shows clause (low.rowOf number) (high.map (Bound.rowOf number)) := by
  refine ⟨_, fill_window f lowNumbered highNumbered, ?_⟩
  cases high with
  | none => exact offset_shows f low
  | some b =>
    cases low with
    | param p => cases b <;> exact span_shows f _ _
    | row n =>
      by_cases zero : n = 0
      · subst zero
        cases b <;> exact shows_limit _
      · have offset : (Bound.row n).offsetOf (fun p => (number p : Int)) = some (n : Int) :=
          if_neg (by simpa [Bound.isZero] using zero)
        rw [offset]
        cases b with
        | row m => exact shows_limit_offset fun _ _ => rfl
        | param p =>
          have span : (Bound.row n).limitOf (fun p => (number p : Int)) (some (.param p)) =
              some ((Bound.row n).rowsUpTo (fun p => number p) (.param p)) :=
            congrArg some (if_neg (by simpa [Bound.isZero] using zero))
          rw [span]
          exact span_shows f (.row n) (.param p)

end

/-! ### Slices that run -/

def Compiles (v : Vendor) (types : Types) (j : Journal) (q : Query) : Prop :=
  ∃ a types' j', (compile v q).exec types j = ((.ok a, types'), j')

/-- The query compiles, and a server runs it as the front and a clause that it
reads as the window. -/
def RunsWindow (v : Vendor) (types : Types) (j : Journal) (q : Query) (cleaned : CleanedArguments)
    (front : String) (w : Window) : Prop :=
  ∃ a types' j' clause, (compile v q).exec types j = ((.ok a, types'), j') ∧
    RunsAs v types' q a cleaned (front ++ clause) ∧ Window.read? clause = some w

/-- With the values in place, the query is written as the front and a clause
that a server reads as the window. -/
def WritesWindow (v : Vendor) (q : Query) (cleaned : CleanedArguments) (front : String)
    (w : Window) : Prop :=
  ∃ clause, Piece.fill (holeText v.flavor q.params cleaned) (pieces v q) = .ok (front ++ clause) ∧
    Window.read? clause = some w

section
variable {v : Vendor} {q q' : Query} {types : Types} {j k k' : Journal}
  {cleaned : CleanedArguments} {number : Param → Nat} {low : Bound} {high : Option Bound}

/-- The authors between two numbers that an execution supplies. -/
def someAuthors : Query :=
  { model := Library.Author.model
    low := .param (.scalar "l" "low")
    high := some (.param (.scalar "h" "high"))
    params := ⟨[.scalar "l" "low", .scalar "h" "high"]⟩ }

/-- Numbers that leave no author between them. -/
def crossedNumbers (p : Param) : Nat :=
  if p.name = "low" then 7 else 4

def crossedArguments : CleanedArguments :=
  [("low", [.int .int64 (some (Ranged.clamp .int64 7))]),
    ("high", [.int .int64 (some (Ranged.clamp .int64 4))])]

end

end Prepared

end PreparedSql
