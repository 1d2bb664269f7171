/-! Binary floating point numbers of the interchange formats, as exact values.

A number other than NaN is a sign and a rank: the rank counts the magnitudes
of the format upwards from zero, and the one behind the greatest finite
magnitude is infinity. Rank and sign are the bits of the interchange form, so
neighbouring magnitudes have neighbouring ranks. -/
namespace PreparedSql

/-- The two parameters of a format: bits of the significand with the hidden
one, and bits of the exponent field. -/
structure BinaryFormat where
  precision : Nat
  exponentBits : Nat
  deriving DecidableEq, Repr

namespace BinaryFormat

def single : BinaryFormat := ⟨24, 8⟩
def double : BinaryFormat := ⟨53, 11⟩

/-- The magnitudes that share one exponent. -/
def block (f : BinaryFormat) : Nat :=
  Nat.pow 2 (f.precision - 1)

/-- The rank of infinity. -/
def infinity (f : BinaryFormat) : Nat :=
  (Nat.pow 2 f.exponentBits - 1) * f.block

/-- The exponent of the least positive magnitude, negated. -/
def leastExponent (f : BinaryFormat) : Nat :=
  Nat.pow 2 (f.exponentBits - 1) - 2 + (f.precision - 1)

/-- Bits of the interchange form. -/
def width (f : BinaryFormat) : Nat :=
  f.precision + f.exponentBits

end BinaryFormat

/-- A number of the format. -/
inductive Binary (f : BinaryFormat) where
  | nan
  | number (negative : Bool) (rank : Nat) (bounded : rank ≤ f.infinity)

/-- A quotient of natural numbers. -/
structure Ratio where
  numerator : Nat
  denominator : Nat

/-- The natural number nearest to a quotient; a half goes to the even one. -/
def roundHalfEven (numerator denominator : Nat) : Nat :=
  let q := numerator / denominator
  let twice := 2 * (numerator % denominator)
  if twice < denominator then q
  else if denominator < twice then q + 1
  else q + q % 2

/-- The natural number nearest to a quotient; a half goes up. -/
def roundHalfUp (numerator denominator : Nat) : Nat :=
  (2 * numerator + denominator) / (2 * denominator)

namespace Binary

variable {f : BinaryFormat}

/-- A rank above infinity stands for infinity. -/
def ofRank (negative : Bool) (rank : Nat) : Binary f :=
  .number negative (min rank f.infinity) (Nat.min_le_right ..)

def zero : Binary f := ofRank false 0

/-- Significand and exponent of a finite magnitude: it is the significand
times two to the exponent less `leastExponent`. -/
def significand (f : BinaryFormat) (rank : Nat) : Nat × Nat :=
  if rank < f.block then (rank, 0)
  else (f.block + rank % f.block, rank / f.block - 1)

/-- The finite magnitude as a quotient. -/
def magnitude (f : BinaryFormat) (rank : Nat) : Ratio :=
  let (m, e) := significand f rank
  if f.leastExponent ≤ e then ⟨m * Nat.pow 2 (e - f.leastExponent), 1⟩
  else ⟨m, Nat.pow 2 (f.leastExponent - e)⟩

/-- The rank of the magnitude nearest to a quotient, ties to the even rank.

The quotient is scaled to count the units of its block. A quotient that rounds
up to the end of its block gets the first rank of the next. -/
def nearestRank (f : BinaryFormat) (numerator denominator : Nat) : Nat :=
  let scaled := numerator * Nat.pow 2 f.leastExponent / denominator
  let e := (scaled.log2 + 1) - f.precision
  let units := roundHalfEven (numerator * Nat.pow 2 f.leastExponent) (denominator * Nat.pow 2 e)
  units + e * f.block

/-- The number nearest to a signed quotient. -/
def nearest (negative : Bool) (numerator denominator : Nat) : Binary f :=
  ofRank negative (nearestRank f numerator denominator)

/-- The number nearest to a whole number. -/
def ofInt (n : Int) : Binary f :=
  nearest (n < 0) n.natAbs 1

/-- The number whose interchange form is `bits`. -/
def ofBits (bits : Nat) : Binary f :=
  let half := Nat.pow 2 (f.width - 1)
  let rank := bits % half
  if rank ≤ f.infinity then ofRank (half ≤ bits % (2 * half)) rank else .nan

/-- The interchange form; nothing for NaN, which has many. -/
def bits? : Binary f → Option Nat
  | .nan => none
  | .number negative rank _ => some (rank + if negative then Nat.pow 2 (f.width - 1) else 0)

def isNan : Binary f → Bool
  | .nan => true
  | .number .. => false

def isInfinite : Binary f → Bool
  | .nan => false
  | .number _ rank _ => rank == f.infinity

def isNegative : Binary f → Bool
  | .nan => false
  | .number negative .. => negative

/-- Equality of numbers: NaN differs from all, and the two zeros agree. -/
def equals : Binary f → Binary f → Bool
  | .number n r _, .number n' r' _ => r == r' && (n == n' || r == 0)
  | _, _ => false

/-- The nearest number of another format. -/
def convert {g : BinaryFormat} : Binary f → Binary g
  | .nan => .nan
  | .number negative rank _ =>
    if rank = f.infinity then ofRank negative g.infinity
    else
      let m := magnitude f rank
      nearest negative m.numerator m.denominator

end Binary

abbrev Single := Binary .single
abbrev Double := Binary .double

end PreparedSql
