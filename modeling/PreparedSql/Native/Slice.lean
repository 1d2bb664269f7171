import PreparedSql.Native.Reader

/-! Taking members of an application's types from a slice of a text. A program
starts on what is left of the text, and a caller goes on with the slice as the
program leaves it, whether it answers or fails. The slice moves when nothing
can fail any more. -/
namespace PreparedSql

/-- Whether a minus stands at the front, and what follows the sign, if there is
one. -/
def NumberReader.unsign (cs : List Char) : Bool × List Char :=
  match cs with
  | '-' :: rest => (true, rest)
  | '+' :: rest => (false, rest)
  | _ => (false, cs)

/-- What stands behind the mark of hexadecimal digits, if it is there. -/
def Text.unmark (cs : List Char) : List Char :=
  match cs with
  | '\\' :: c :: rest => if c = 'x' ∨ c = 'X' then rest else cs
  | _ => cs

/-- What a decimal number is written with. -/
def DecimalReader.isNumeral (c : Char) : Bool :=
  c.isDigit || c == '.'

namespace Native

/-- A program that takes from the front of a slice. -/
abbrev Take (α : Type) := EStateM ConversionFault String α

namespace Take

/-- The result, or the failure where there is none. -/
def orElseFail {α : Type} (fault : ConversionFault) : Option α → Take α
  | none => throw fault
  | some x => pure x

def wholeNumber (k : IntKind) : Take (Ranged k) := do
  let s ← get
  let (taken, number) := NumberReader.signedDigits s.toList
  let n ← orElseFail (.noInteger s (int k)) number
  let n ← orElseFail (.outOfRange (String.ofList taken) (int k)) (Ranged.ofInt? k n)
  set (String.ofList (s.toList.drop taken.length))
  return n

def binary {f : BinaryFormat} : Take (Binary f) := do
  let s ← get
  let (x, rest) ← orElseFail (.noFloat s) (NumberReader.binary? s.toList)
  set (String.ofList rest)
  return x

def truth : Take Bool := do
  let s ← get
  let (word, rest) := Text.spanWhile Text.isAlphanumeric s
  let b ← orElseFail (.noBoolean s) (truth? word)
  set rest
  return b

/-- All of the slice. -/
def everything : Take String := do
  let s ← get
  set ""
  return s

def hexadecimal : Take (List UInt8) := do
  let s ← get
  if 2 ≤ s.utf8ByteSize ∧ (Text.splitBytes? 2 s.toList).isNone then throw .splitCharacter
  let body := Text.unmark s.toList
  let digits := body.takeWhile Text.isHexDigit
  let b ← orElseFail (.noBytes s) (Text.hexDecodeChars digits)
  set (String.ofList (body.drop digits.length))
  return b

def decimalNumber : Take Decimal := do
  let s ← get
  let (negative, body) := NumberReader.unsign s.toList
  let digits := body.takeWhile DecimalReader.isNumeral
  let d ← orElseFail (.noDecimal s) (DecimalReader.decimal? negative digits)
  set (String.ofList (body.drop digits.length))
  return d

/-- What the first matching pattern reads, when it exists. -/
def parts {α : Type} (t : Native) (patterns : List (List Calendar.Field))
    (build : Calendar.Parts → Option α) : Take α := do
  let s ← get
  let (parts, rest) ← orElseFail (.noMoment s t) (Calendar.firstMatch? patterns s.toList)
  let x ← orElseFail .noSuchMoment (build parts)
  set (String.ofList rest)
  return x

/-- Where no pattern with an offset matches, a moment at UTC is taken from the
slice as the first try left it. -/
def zonedMoment : Take ZonedMoment :=
  tryCatch (parts zoned Calendar.zonedPatterns Calendar.Parts.zoned?) fun
    | .noMoment .. => ZonedMoment.utc <$> parts moment Calendar.momentPatterns Calendar.Parts.moment?
    | fault => throw fault

def identifier : Take Uuid := do
  let s ← get
  let (candidate, rest) ← orElseFail (.shortUuid s) (Text.splitBytes? Uuid.textLength s.toList)
  let u ← orElseFail (.noUuid s) (Uuid.ofChars? candidate)
  set (String.ofList rest)
  return u

/-- The type has no reader of its own. -/
def nothing (t : Native) {α : Type} : Take α := do
  throw (.unreadable (← get) t)

end Take

/-- Takes a member of the type from the front of the slice. -/
def take : (t : Native) → Take t.Carrier
  | int k => Take.wholeNumber k
  | single => Take.binary
  | double => Take.binary
  | boolean => Take.truth
  | text => Take.everything
  | bytes => Take.hexadecimal
  | decimal => Take.decimalNumber
  | date => Take.parts date Calendar.datePatterns Calendar.Parts.date?
  | time => Take.parts time Calendar.timePatterns Calendar.Parts.time?
  | moment => Take.parts moment Calendar.momentPatterns Calendar.Parts.moment?
  | zoned => Take.zonedMoment
  | uuid => Take.identifier
  | borrowedText => Take.nothing borrowedText
  | optional t => Take.nothing (optional t)
  | sequence t => Take.nothing (sequence t)

end Native

end PreparedSql
