import PreparedSql.Text.Hex

/-! Universally unique identifiers: numbers of 128 bits, written as 32
hexadecimal digits in five groups. -/
namespace PreparedSql

structure Uuid where
  value : Nat
  bounded : value < Nat.pow 2 128
  deriving DecidableEq

namespace Uuid

/-- Digits in each group. -/
def groups : List Nat := [8, 4, 4, 4, 12]

/-- Characters of the written form. -/
def textLength : Nat := 36

def ofNat? (n : Nat) : Option Uuid :=
  if h : n < Nat.pow 2 128 then some ⟨n, h⟩ else none

/-- The number that sixteen bytes stand for, the first the highest. -/
def ofBytes? (bytes : List UInt8) : Option Uuid :=
  if bytes.length = 16 then ofNat? (bytes.foldl (fun n b => 256 * n + b.toNat) 0) else none

/-- Puts a hyphen between the groups. -/
def grouped : List Nat → List Char → List Char
  | [], _ => []
  | [n], digits => digits.take n
  | n :: rest, digits => digits.take n ++ '-' :: grouped rest (digits.drop n)

/-- All the digits of the number, 32 of them. -/
def digits (u : Uuid) : List Char :=
  let shown := Nat.toDigits 16 u.value
  List.replicate (32 - shown.length) '0' ++ shown

def toText (u : Uuid) : String :=
  String.ofList (grouped groups u.digits)

/-- Reads the groups; every character between them has to be a hyphen. -/
def readGroups? : List Nat → List Char → Option (List Char)
  | [], _ => none
  | [n], cs => if cs.length = n ∧ cs.all Text.isHexDigit then some cs else none
  | n :: rest, cs =>
    let group := cs.take n
    if group.length = n ∧ group.all Text.isHexDigit ∧ cs[n]? = some '-' then
      (readGroups? rest (cs.drop (n + 1))).map (group ++ ·)
    else none

/-- Reads the grouped form, in either case. -/
def ofChars? (cs : List Char) : Option Uuid := do
  let digits ← readGroups? groups cs
  ofNat? (digits.foldl (fun n c => 16 * n + (Text.hexValue? c).getD 0) 0)

def ofText? (s : String) : Option Uuid :=
  ofChars? s.toList

end Uuid

end PreparedSql
