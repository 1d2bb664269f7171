import PreparedSql.Number.Shortest

/-! The texts of binary numbers: shortest digits, placed around a decimal
point or beside an exponent as a layout lays down. -/
namespace PreparedSql

/-- Where a layout puts the point, and the words for what has no digits. -/
structure FloatLayout where
  /-- Least and greatest `k` with ten to `k - 1` at most the number and ten to
  `k` above it, for which the number is written without exponent. -/
  positional : Option (Int × Int)
  /-- A whole number written without exponent ends in `.0`. -/
  fraction : Bool
  tie : Shortest.Tie
  nan : String
  infinity : String

namespace FloatLayout

/-- Without exponent whatever the size. -/
def plain : FloatLayout :=
  { positional := none, fraction := false, tie := .up, nan := "NaN", infinity := "inf" }

/-- As messages show a number. -/
def message : FloatLayout :=
  { positional := some (-3, 16), fraction := true, tie := .up, nan := "NaN", infinity := "inf" }

/-- As statements hold a number of the double format. -/
def sqlDouble : FloatLayout :=
  { positional := some (-4, 16), fraction := true, tie := .even, nan := "NaN", infinity := "inf" }

/-- As statements hold a number of the single format. -/
def sqlSingle : FloatLayout :=
  { positional := some (-5, 13), fraction := true, tie := .even, nan := "NaN", infinity := "inf" }

/-- Digits with the point behind the first `k` of them. -/
def positionalText (fraction : Bool) (digits : List Char) (k : Int) : List Char :=
  let count := digits.length
  if k ≤ 0 then
    ['0', '.'] ++ List.replicate (-k).toNat '0' ++ digits
  else if count ≤ k.toNat then
    digits ++ List.replicate (k.toNat - count) '0' ++ (if fraction then ['.', '0'] else [])
  else
    digits.take k.toNat ++ '.' :: digits.drop k.toNat

/-- One digit before the point, and the exponent. -/
def exponentText (digits : List Char) (k : Int) : List Char :=
  let point := match digits with
    | [] => []
    | [d] => [d]
    | d :: rest => d :: '.' :: rest
  point ++ 'e' :: (toString (k - 1)).toList

/-- The text of a finite magnitude. -/
def magnitudeText (layout : FloatLayout) (f : BinaryFormat) (rank : Nat) : List Char :=
  if rank = 0 then if layout.fraction then ['0', '.', '0'] else ['0']
  else
    let d := Shortest.ofRank f layout.tie rank
    let digits := Nat.toDigits 10 d.digits
    let k := d.exponent + digits.length
    match layout.positional with
    | none => positionalText layout.fraction digits k
    | some (least, greatest) =>
      if least ≤ k ∧ k ≤ greatest then positionalText layout.fraction digits k
      else exponentText digits k

/-- The text of a number; a minus stands before every negative one, zero included. -/
def text (layout : FloatLayout) {f : BinaryFormat} : Binary f → String
  | .nan => layout.nan
  | .number negative rank _ =>
    (if negative then "-" else "") ++
      if rank = f.infinity then layout.infinity
      else String.ofList (layout.magnitudeText f rank)

end FloatLayout

end PreparedSql
