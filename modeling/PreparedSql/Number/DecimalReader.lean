import PreparedSql.Number.Decimal

/-! Reading decimal numbers. Places that do not fit are rounded away by the
first of them; before the point every digit has to fit. -/
namespace PreparedSql.DecimalReader

/-- What has been read: the units, the places behind the point, whether the
point was seen, and whether a digit was. -/
structure Reading where
  units : Nat
  scale : Nat
  point : Bool
  digits : Bool

/-- Rounds by the first digit that does not fit; a half goes up. A number of
units that becomes too large by this gives up one place. -/
def rounded? (units scale digit : Nat) : Option (Nat × Nat) :=
  if digit < 5 then some (units, scale)
  else if units + 1 < decimalBound then some (units + 1, scale)
  else if scale = 0 then none
  else some ((units + 5) / 10, scale - 1)

/-- Gives up the places that do not fit. All of them have to be digits, and the
first one rounds. -/
def withoutPlaces? (units scale : Nat) : List Char → Option (Nat × Nat)
  | [] => some (units, scale)
  | first :: others =>
    if others.all Char.isDigit then (Text.digitValue? first).bind (rounded? units scale) else none

/-- Reads digits with at most one point among them. -/
def read? : Reading → List Char → Option (Nat × Nat)
  | r, [] => if r.digits then some (r.units, r.scale) else none
  | r, c :: rest =>
    if r.point ∧ maxScale ≤ r.scale then withoutPlaces? r.units r.scale (c :: rest)
    else if c = '.' then
      if r.point then none else read? { r with point := true } rest
    else
      match Text.digitValue? c with
      | none => none
      | some digit =>
        let next := 10 * r.units + digit
        if next < decimalBound then
          read? ⟨next, if r.point then r.scale + 1 else r.scale, r.point, true⟩ rest
        else if r.point then withoutPlaces? r.units r.scale (c :: rest)
        else none

/-- The number that a sign and digits stand for. Zero takes no sign. -/
def decimal? (negative : Bool) (digits : List Char) : Option Decimal := do
  let (units, scale) ← read? ⟨0, 0, false, false⟩ digits
  Decimal.of? (negative && units != 0) units scale

end PreparedSql.DecimalReader
