import PreparedSql.Number.Binary

/-! The fewest decimal digits that read back as the same binary number.

The reals that round to a magnitude form an interval around it. On the decimal
grids of one, two, three and more digits the two neighbours of the magnitude
are tried; the first grid with a neighbour inside the interval gives the
digits, and of two such neighbours the nearer wins. -/
namespace PreparedSql.Shortest

/-- How to decide between two neighbours at the same distance. -/
inductive Tie where
  | even
  | up
  deriving DecidableEq, Repr

/-- The number `digits` times ten to the `exponent`. -/
structure Digits where
  digits : Nat
  exponent : Int
  deriving DecidableEq, Repr

/-- The count of decimal digits. -/
def length (n : Nat) : Nat :=
  (Nat.toDigits 10 n).length

/-- Takes the zeros off the end of a number, with the fuel as a bound. -/
def stripZeros : Nat → Digits → Digits
  | 0, d => d
  | fuel + 1, d =>
    if d.digits ≠ 0 ∧ d.digits % 10 = 0 then stripZeros fuel ⟨d.digits / 10, d.exponent + 1⟩
    else d

/-- A magnitude in units of the least positive one. -/
def units (f : BinaryFormat) (rank : Nat) : Nat :=
  let (m, e) := Binary.significand f rank
  m * Nat.pow 2 e

/-- The reals that round to a rank: its ends in half units, and whether the
ends themselves belong to it. -/
structure Interval where
  low : Nat
  high : Nat
  closed : Bool

def interval (f : BinaryFormat) (rank : Nat) : Interval :=
  ⟨units f (rank - 1) + units f rank, units f rank + units f (rank + 1), rank % 2 == 0⟩

/-- The quotient lies in the interval. -/
def Interval.holds (i : Interval) (numerator denominator : Nat) : Bool :=
  if i.closed then i.low * denominator ≤ numerator && numerator ≤ i.high * denominator
  else i.low * denominator < numerator && numerator < i.high * denominator

/-- Tries the grid of ten to the `exponent`. The value is `u` units, a unit is
one over two to the `shift`. -/
def onGrid? (tie : Tie) (i : Interval) (u shift : Nat) (exponent : Int) : Option Digits :=
  -- one step of the grid is `up / down`, in units
  let up := Nat.pow 2 shift * Nat.pow 10 exponent.toNat
  let down := Nat.pow 10 (-exponent).toNat
  let floor := u * down / up
  let rest := u * down % up
  let inside (n : Nat) : Bool := i.holds (2 * n * up) down
  let pickUpper := match tie with
    | .even => decide (up < 2 * rest) || (2 * rest == up && floor % 2 == 1)
    | .up => decide (up ≤ 2 * rest)
  match inside floor && floor ≠ 0, inside (floor + 1) with
  | true, true => some ⟨if pickUpper then floor + 1 else floor, exponent⟩
  | true, false => some ⟨floor, exponent⟩
  | false, true => some ⟨floor + 1, exponent⟩
  | false, false => none

/-- The exponent `k` with ten to `k - 1` at most the value and ten to `k` above it. -/
def decimalExponent (u shift : Nat) : Int :=
  (length (u * Nat.pow 10 shift / Nat.pow 2 shift) : Int) - shift

/-- The first of the next grids on which a neighbour reads back. -/
def search (tie : Tie) (i : Interval) (u shift : Nat) (k : Int) : Nat → Nat → Digits
  | 0, _ => ⟨u, -shift⟩
  | fuel + 1, n =>
    match onGrid? tie i u shift (k - n) with
    | some d => d
    | none => search tie i u shift k fuel (n + 1)

/-- The shortest digits of the magnitude of a rank. -/
def ofRank (f : BinaryFormat) (tie : Tie) (rank : Nat) : Digits :=
  if rank = 0 then ⟨0, 0⟩
  else
    let u := units f rank
    let d := search tie (interval f rank) u f.leastExponent
      (decimalExponent u f.leastExponent) (f.precision + 1) 1
    stripZeros (length d.digits) d

end PreparedSql.Shortest
