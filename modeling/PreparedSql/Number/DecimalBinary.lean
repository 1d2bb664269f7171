import PreparedSql.Number.Binary
import PreparedSql.Number.Decimal

/-! From binary to decimal numbers and back.

A binary number becomes units and a power of ten by exchanging its factors of
two for factors of five; the digits beyond what its format guarantees are then
rounded away. A decimal number becomes the sum of its whole part and its
fraction, rounded to its own places. -/
namespace PreparedSql

namespace Decimal

/-- Units and a power of ten while a conversion is under way. -/
structure Scaled where
  units : Nat
  exponent : Int

namespace Scaled

/-- Exchanges factors one half for factors one tenth and five. A half is taken
directly from an even number of units, and from any that five would push out of
bounds. -/
def halve : Nat → Scaled → Scaled
  | 0, s => s
  | n + 1, s =>
    if s.units % 2 = 0 then halve n ⟨s.units / 2, s.exponent + 1⟩
    else if s.units * 5 < decimalBound then halve n ⟨s.units * 5, s.exponent⟩
    else halve n ⟨s.units / 2, s.exponent + 1⟩

/-- Exchanges factors two for factors ten and one fifth. -/
def double : Nat → Scaled → Scaled
  | 0, s => s
  | n + 1, s =>
    if s.units * 2 < decimalBound then double n ⟨s.units * 2, s.exponent - 1⟩
    else double n ⟨s.units / 5, s.exponent⟩

/-- Brings a positive exponent down to zero, when the units stay in bounds. -/
def lower? : Nat → Scaled → Option Scaled
  | 0, s => some s
  | n + 1, s =>
    if s.exponent ≤ 0 then some s
    else if s.units * 10 < decimalBound then lower? n ⟨s.units * 10, s.exponent - 1⟩
    else none

/-- One place less, a half rounded up. -/
def dropPlace (s : Scaled) : Scaled :=
  ⟨s.units / 10 + (if 5 ≤ s.units % 10 then 1 else 0), s.exponent + 1⟩

/-- Brings the exponent up to the greatest scale; what vanishes on the way is zero. -/
def raise : Nat → Scaled → Scaled
  | 0, s => s
  | n + 1, s =>
    if -(maxScale : Int) ≤ s.exponent then s
    else if s.units / 10 = 0 then ⟨0, 0⟩
    else raise n s.dropPlace

/-- Drops places while the units are at least `bound`. -/
def shorten (bound : Nat) : Nat → Scaled → Scaled
  | 0, s => s
  | n + 1, s =>
    if s.exponent < 0 ∧ bound ≤ s.units then shorten bound n s.dropPlace else s

/-- Drops the places that hold a zero at the end. -/
def strip : Nat → Scaled → Scaled
  | 0, s => s
  | n + 1, s =>
    if s.exponent < 0 ∧ s.units % 10 = 0 then strip n ⟨s.units / 10, s.exponent + 1⟩ else s

end Scaled

/-- Units from which on a digit is beyond what the format guarantees. -/
def guaranteed (f : BinaryFormat) : Nat :=
  if f.precision = 53 then Nat.pow 2 52 else Nat.pow 2 f.precision

/-- The decimal number for a finite binary one, when it is in bounds. What is
too small for any place becomes a zero of the same sign. -/
def ofBinary? {f : BinaryFormat} : Binary f → Option Decimal
  | .nan => none
  | .number negative rank _ =>
    if rank = f.infinity then none
    else if rank = 0 then some { zero with negative := negative }
    else do
      let (m, e) := Binary.significand f rank
      let exponent : Int := e - f.leastExponent
      let exchanged :=
        if exponent < 0 then Scaled.halve (-exponent).toNat ⟨m, exponent⟩
        else Scaled.double exponent.toNat ⟨m, exponent⟩
      let lowered ← exchanged.lower? exchanged.exponent.toNat
      let raised := lowered.raise (-lowered.exponent).toNat
      let short := raised.shorten (guaranteed f) (-raised.exponent).toNat
      let last := short.strip (-short.exponent).toNat
      of? negative last.units (-last.exponent).toNat

/-- A quotient rounded to the double format. -/
def roundedRatio (numerator denominator : Nat) : Ratio :=
  Binary.magnitude .double (Binary.nearestRank .double numerator denominator)

/-- The binary number for a decimal one. -/
def toDouble (d : Decimal) : Double :=
  if d.scale = 0 then Binary.ofInt d.signedUnits
  else
    let one := Nat.pow 10 d.scale
    let place := roundedRatio one 1
    let part := roundedRatio (d.units % one) 1
    let fraction := roundedRatio (part.numerator * place.denominator)
      (part.denominator * place.numerator)
    let whole := roundedRatio (d.units / one) 1
    if fraction.numerator = 0 then Binary.nearest d.negative whole.numerator whole.denominator
    else
      let sum := roundedRatio
        (whole.numerator * fraction.denominator + fraction.numerator * whole.denominator)
        (whole.denominator * fraction.denominator)
      let scaled := roundedRatio (sum.numerator * place.numerator)
        (sum.denominator * place.denominator)
      let steps := roundHalfUp scaled.numerator scaled.denominator
      Binary.nearest d.negative (steps * place.denominator) place.numerator

end Decimal

end PreparedSql
