/-! Bytes as pairs of hexadecimal digits. -/
namespace PreparedSql.Text

/-- A digit below sixteen, in lower case. -/
def hexDigit (n : Nat) : Char :=
  if n < 10 then Char.ofNat ('0'.toNat + n) else Char.ofNat ('a'.toNat + (n - 10))

/-- The value of a hexadecimal digit in either case. -/
def hexValue? (c : Char) : Option Nat :=
  if '0' ≤ c ∧ c ≤ '9' then some (c.toNat - '0'.toNat)
  else if 'a' ≤ c ∧ c ≤ 'f' then some (c.toNat - 'a'.toNat + 10)
  else if 'A' ≤ c ∧ c ≤ 'F' then some (c.toNat - 'A'.toNat + 10)
  else none

def isHexDigit (c : Char) : Bool :=
  (hexValue? c).isSome

/-- The two digits of a byte, the high half first. -/
def hexByte (b : UInt8) : List Char :=
  [hexDigit (b.toNat / 16), hexDigit (b.toNat % 16)]

/-- Two lower case digits for every byte. -/
def hexEncode (bytes : List UInt8) : String :=
  String.ofList (bytes.flatMap hexByte)

/-- Two upper case digits for every byte. -/
def hexEncodeUpper (bytes : List UInt8) : String :=
  String.ofList ((bytes.flatMap hexByte).map Char.toUpper)

/-- Reads digits in pairs; refuses an odd number of them and any other character. -/
def hexDecodeChars : List Char → Option (List UInt8)
  | [] => some []
  | [_] => none
  | high :: low :: rest => do
    let h ← hexValue? high
    let l ← hexValue? low
    let bytes ← hexDecodeChars rest
    return UInt8.ofNat (16 * h + l) :: bytes

def hexDecode (s : String) : Option (List UInt8) :=
  hexDecodeChars s.toList

/-- A number without sign in lower case hexadecimal, with no leading zero. -/
def hexNat (n : Nat) : String :=
  String.ofList (Nat.toDigits 16 n)

end PreparedSql.Text
