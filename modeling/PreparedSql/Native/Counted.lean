import PreparedSql.Native.Slice

/-! Taking from a slice by counts of bytes. Readers tell how many bytes they have read, or how many
they left, and the slice is cut at the count. A count that ends inside a character, or behind the end
of the text, stops the program there. -/
namespace PreparedSql

namespace Text

/-- Counts down from a number of bytes to where the text can be cut. -/
def lastCut (cs : List Char) : Nat → Nat
  | 0 => 0
  | n + 1 => if (splitBytes? (n + 1) cs).isSome then n + 1 else lastCut cs n

/-- The text as a message shows it, cut at a count of bytes; nothing where the cut would fall inside
a character. -/
def truncatedAtCut? (s : String) : Option String :=
  if s.utf8ByteSize ≤ shownBytes then some (trimEnd s)
  else (splitBytes? (lastCut s.toList shownBytes) s.toList).map fun (front, _) =>
    String.ofList (trimEndChars front) ++ "..."

end Text

namespace Native

namespace Counted

open Take (orElseFail)

/-- The text up to a number of bytes. -/
def upTo (n : Nat) (s : String) : Take String :=
  orElseFail .splitCharacter ((Text.splitBytes? n s.toList).map fun (front, _) => String.ofList front)

/-- The text behind a number of bytes. -/
def behind (n : Nat) (s : String) : Take String :=
  orElseFail .splitCharacter ((Text.splitBytes? n s.toList).map fun (_, back) => String.ofList back)

/-- The characters at the front that pass the test, and the text behind them. -/
def consume (test : Char → Bool) (s : String) : Take (String × String) := do
  let length := Text.byteCount (s.toList.takeWhile test)
  let rest ← behind length s
  return (← upTo length s, rest)

def isSign (c : Char) : Bool :=
  c == '+' || c == '-'

/-- What was read has to be more than a sign. -/
def wholeNumber (k : IntKind) : Take (Ranged k) := do
  let s ← get
  let (taken, number) := NumberReader.signedDigits s.toList
  let length := Text.byteCount taken
  let spelled ← upTo length s
  if (spelled.toList.dropWhile isSign).isEmpty then throw (.noInteger s (int k))
  let n ← orElseFail (.outOfRange spelled (int k)) (number.bind (Ranged.ofInt? k))
  set (← behind length s)
  return n

def binary {f : BinaryFormat} : Take (Binary f) := do
  let s ← get
  let (x, rest) ← orElseFail (.noFloat s) (NumberReader.binary? s.toList)
  set (← behind (s.utf8ByteSize - Text.byteCount rest) s)
  return x

def truth : Take Bool := do
  let s ← get
  let (word, rest) ← consume Text.isAlphanumeric s
  let b ← orElseFail (.noBoolean s) (truth? word)
  set rest
  return b

/-- What is behind the mark of hexadecimal digits, which are the first two bytes when it is there. -/
def unmarked (s : String) : Take String := do
  if 2 ≤ s.utf8ByteSize then
    let mark ← upTo 2 s
    if mark.toLower = "\\x" then behind 2 s else pure s
  else pure s

def hexadecimal : Take (List UInt8) := do
  let s ← get
  let (digits, rest) ← consume Text.isHexDigit (← unmarked s)
  let b ← orElseFail (.noBytes s) (Text.hexDecode digits)
  set rest
  return b

/-- The number is read from the text up to the end of its digits, the sign included. -/
def decimalNumber : Take Decimal := do
  let s ← get
  let unsigned := String.ofList (NumberReader.unsign s.toList).2
  let sign := s.utf8ByteSize - unsigned.utf8ByteSize
  let (digits, rest) ← consume DecimalReader.isNumeral unsigned
  let spelled ← upTo (sign + digits.utf8ByteSize) s
  let (negative, body) := NumberReader.unsign spelled.toList
  let d ← orElseFail (.noDecimal s) (DecimalReader.decimal? negative body)
  set rest
  return d

def parts {α : Type} (t : Native) (patterns : List (List Calendar.Field))
    (build : Calendar.Parts → Option α) : Take α := do
  let s ← get
  let (parts, rest) ← orElseFail (.noMoment s t) (Calendar.firstMatch? patterns s.toList)
  let x ← orElseFail .noSuchMoment (build parts)
  set (← behind (s.utf8ByteSize - Text.byteCount rest) s)
  return x

/-- Where no moment with an offset is read, one at UTC is tried. -/
def orAtUtc (shifted : Take ZonedMoment) (plain : Take Moment) : Take ZonedMoment :=
  tryCatch shifted fun
    | .noMoment .. => ZonedMoment.utc <$> plain
    | fault => throw fault

def zonedMoment : Take ZonedMoment :=
  orAtUtc (parts zoned Calendar.zonedPatterns Calendar.Parts.zoned?)
    (parts moment Calendar.momentPatterns Calendar.Parts.moment?)

/-- A text that cannot be cut behind an identifier is too short, or has none in front. -/
def identifier : Take Uuid := do
  let s ← get
  let (candidate, _) ← orElseFail (.shortUuid s) (Text.splitBytes? Uuid.textLength s.toList)
  let u ← orElseFail (.noUuid s) (Uuid.ofChars? candidate)
  set (← behind Uuid.textLength s)
  return u

end Counted

/-- Takes a member of the type from the front of the slice, which is cut by counts of bytes. -/
def takeCounted : (t : Native) → Take t.Carrier
  | int k => Counted.wholeNumber k
  | single => Counted.binary
  | double => Counted.binary
  | boolean => Counted.truth
  | text => Take.everything
  | bytes => Counted.hexadecimal
  | decimal => Counted.decimalNumber
  | date => Counted.parts date Calendar.datePatterns Calendar.Parts.date?
  | time => Counted.parts time Calendar.timePatterns Calendar.Parts.time?
  | moment => Counted.parts moment Calendar.momentPatterns Calendar.Parts.moment?
  | zoned => Counted.zonedMoment
  | uuid => Counted.identifier
  | borrowedText => Take.nothing borrowedText
  | optional t => Take.nothing (optional t)
  | sequence t => Take.nothing (sequence t)

end Native

end PreparedSql
