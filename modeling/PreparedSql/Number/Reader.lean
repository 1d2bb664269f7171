import PreparedSql.Number.Binary
import PreparedSql.Text.Basic

/-! Reading a number from the front of a text: whole numbers, and binary
numbers in positional or exponent form. -/
namespace PreparedSql.NumberReader

/-- The characters from the front that form an optional sign and digits, and
the number, when there is a digit. -/
def signedDigits (cs : List Char) : List Char × Option Int :=
  let (sign, rest) := match cs with
    | '-' :: rest => (['-'], rest)
    | '+' :: rest => (['+'], rest)
    | _ => ([], cs)
  let digits := rest.takeWhile Char.isDigit
  let n : Int := Text.digitsValue digits
  (sign ++ digits, if digits.isEmpty then none else some (if sign = ['-'] then -n else n))

/-- The text without a word at its front, case ignored. -/
def dropWord? (word : List Char) (cs : List Char) : Option (List Char) :=
  if (cs.take word.length).map Char.toLower = word then some (cs.drop word.length) else none

/-- A decimal number as it is written: the digits without the point, and the
power of ten that they count. -/
structure Written where
  digits : Nat
  exponent : Int

/-- Exponents from here on take no further digit. -/
def exponentLimit : Nat := 0x10000

/-- The exponent behind `e` or `E`; when no digit follows, nothing is taken. -/
def exponentPart (cs : List Char) : Int × List Char :=
  match cs with
  | mark :: rest =>
    if mark = 'e' ∨ mark = 'E' then
      let (negative, digits) := match rest with
        | '-' :: more => (true, more)
        | '+' :: more => (false, more)
        | _ => (false, rest)
      let run := digits.takeWhile Char.isDigit
      if run.isEmpty then (0, cs)
      else
        let n := run.foldl (fun n c => if n < exponentLimit then 10 * n + (c.toNat - 48) else n) 0
        (if negative then -(n : Int) else n, digits.dropWhile Char.isDigit)
    else (0, cs)
  | [] => (0, [])

/-- Digits with an optional point among them, then an optional exponent. -/
def written? (cs : List Char) : Option (Written × List Char) :=
  let whole := cs.takeWhile Char.isDigit
  let rest := cs.dropWhile Char.isDigit
  let (fraction, rest) := match rest with
    | '.' :: more => (more.takeWhile Char.isDigit, more.dropWhile Char.isDigit)
    | _ => ([], rest)
  if whole.isEmpty && fraction.isEmpty then none
  else
    let (exponent, rest) := exponentPart rest
    some (⟨Text.digitsValue (whole ++ fraction), exponent - fraction.length⟩, rest)

/-- The words for what has no digits. -/
def word? {f : BinaryFormat} (negative : Bool) (cs : List Char) : Option (Binary f × List Char) :=
  match dropWord? "nan".toList cs with
  | some rest => some (.nan, rest)
  | none =>
    match dropWord? "infinity".toList cs with
    | some rest => some (Binary.ofRank negative f.infinity, rest)
    | none => (dropWord? "inf".toList cs).map fun rest => (Binary.ofRank negative f.infinity, rest)

/-- The nearest number to the longest number a text begins with, and the rest. -/
def binary? {f : BinaryFormat} (cs : List Char) : Option (Binary f × List Char) :=
  let (negative, body) := match cs with
    | '-' :: rest => (true, rest)
    | '+' :: rest => (false, rest)
    | _ => (false, cs)
  match written? body with
  | some (w, rest) =>
    some (.nearest negative (w.digits * Nat.pow 10 w.exponent.toNat) (Nat.pow 10 (-w.exponent).toNat), rest)
  | none => word? negative body

end PreparedSql.NumberReader
