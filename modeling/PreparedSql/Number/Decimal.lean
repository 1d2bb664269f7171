import PreparedSql.Text.Basic

/-! Decimal numbers: a sign and a whole number of units, each a power of ten
smaller than one. The number of units stays below two to the 96 and the scale
is at most 28. A number keeps its scale; zero may carry a sign, which its text
shows and its value does not. -/
namespace PreparedSql

/-- Bound on the number of units. -/
def decimalBound : Nat := Nat.pow 2 96

/-- Places that a decimal number can have behind the point. -/
def maxScale : Nat := 28

structure Decimal where
  negative : Bool
  units : Nat
  scale : Nat
  fits : units < decimalBound ∧ scale ≤ maxScale
  deriving DecidableEq

namespace Decimal

/-- The number with this sign, these units and this scale, when they are in bounds. -/
def of? (negative : Bool) (units scale : Nat) : Option Decimal :=
  if h : units < decimalBound ∧ scale ≤ maxScale then some ⟨negative, units, scale, h⟩ else none

def zero : Decimal := ⟨false, 0, 0, by decide⟩

/-- The units, below zero for a negative number. -/
def signedUnits (d : Decimal) : Int :=
  if d.negative then -d.units else d.units

/-- Two numbers are equal when their values are, whatever their scales. -/
def equals (a b : Decimal) : Bool :=
  a.signedUnits * Nat.pow 10 b.scale == b.signedUnits * Nat.pow 10 a.scale

/-- The value has no part behind the point. -/
def isWhole (d : Decimal) : Bool :=
  d.units % Nat.pow 10 d.scale == 0

/-- The value without its part behind the point. -/
def whole (d : Decimal) : Int :=
  d.signedUnits.tdiv (Nat.pow 10 d.scale)

/-- Takes zeros off the end of the places, as long as there are any. -/
def normalizeStep : Nat → Nat → Nat → Nat × Nat
  | 0, u, s => (u, s)
  | fuel + 1, u, s =>
    if s ≠ 0 ∧ u % 10 = 0 then normalizeStep fuel (u / 10) (s - 1) else (u, s)

/-- The same value with the least scale; zero loses its sign. -/
def normalize (d : Decimal) : Decimal :=
  let (u, s) := normalizeStep d.scale d.units d.scale
  (of? (d.negative && d.units != 0) u s).getD d

/-- The digits with the point before the last `scale` of them. -/
def toText (d : Decimal) : String :=
  let digits := (Text.padded (d.scale + 1) d.units).toList
  let cut := digits.length - d.scale
  let body := if d.scale = 0 then digits else digits.take cut ++ '.' :: digits.drop cut
  (if d.negative then "-" else "") ++ String.ofList body

end Decimal

end PreparedSql
