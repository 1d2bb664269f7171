import PreparedSql.Calendar.Pattern
import PreparedSql.Failure.Conversion
import PreparedSql.Number.DecimalBinary
import PreparedSql.Number.DecimalReader
import PreparedSql.Number.Reader
import PreparedSql.Text.Alphanumeric

/-! Reading members of an application's types from texts. Extraction takes the
longest readable front and leaves the rest; a whole text has to leave none. -/
namespace PreparedSql.Native

/-- A member read from the front of a text, and the rest. -/
abbrev Extracted (t : Native) := Except ConversionFault (t.Carrier × String)

def extractInt (k : IntKind) (s : String) : Extracted (int k) :=
  let (taken, number) := NumberReader.signedDigits s.toList
  match number with
  | none => .error (.noInteger s (int k))
  | some n =>
    match Ranged.ofInt? k n with
    | none => .error (.outOfRange (String.ofList taken) (int k))
    | some n => .ok (n, String.ofList (s.toList.drop taken.length))

def extractBinary {f : BinaryFormat} (s : String) : Except ConversionFault (Binary f × String) :=
  match NumberReader.binary? s.toList with
  | none => .error (.noFloat s)
  | some (x, rest) => .ok (x, String.ofList rest)

/-- The word a text begins with, when it stands for a truth value; case does
not matter. -/
def truth? (word : String) : Option Bool :=
  let plain := word.toLower
  if plain = "true" ∨ plain = "t" ∨ plain = "1" then some true
  else if plain = "false" ∨ plain = "f" ∨ plain = "0" then some false
  else none

def extractBoolean (s : String) : Extracted boolean :=
  let (word, rest) := Text.spanWhile Text.isAlphanumeric s
  match truth? word with
  | none => .error (.noBoolean s)
  | some b => .ok (b, rest)

/-- Hexadecimal digits, perhaps behind `\x`. -/
def extractBytes (s : String) : Extracted bytes :=
  let cs := s.toList
  if 2 ≤ s.utf8ByteSize ∧ (Text.splitBytes? 2 cs).isNone then .error .splitCharacter
  else
    let body := match cs with
      | '\\' :: c :: rest => if c = 'x' ∨ c = 'X' then rest else cs
      | _ => cs
    let digits := body.takeWhile Text.isHexDigit
    match Text.hexDecodeChars digits with
    | none => .error (.noBytes s)
    | some b => .ok (b, String.ofList (body.drop digits.length))

def extractDecimal (s : String) : Extracted decimal :=
  let cs := s.toList
  let (negative, body) := match cs with
    | '-' :: rest => (true, rest)
    | '+' :: rest => (false, rest)
    | _ => (false, cs)
  let digits := body.takeWhile fun c => c.isDigit || c == '.'
  match DecimalReader.decimal? negative digits with
  | none => .error (.noDecimal s)
  | some d => .ok (d, String.ofList (body.drop digits.length))

/-- By the first pattern that matches; the calendar has to have what it reads. -/
def extractParts {α : Type} (t : Native) (patterns : List (List Calendar.Field))
    (build : Calendar.Parts → Option α) (s : String) : Except ConversionFault (α × String) :=
  match Calendar.firstMatch? patterns s.toList with
  | none => .error (.noMoment s t)
  | some (parts, rest) =>
    match build parts with
    | none => .error .noSuchMoment
    | some x => .ok (x, String.ofList rest)

def extractDate : String → Extracted date :=
  extractParts date Calendar.datePatterns Calendar.Parts.date?

def extractTime : String → Extracted time :=
  extractParts time Calendar.timePatterns Calendar.Parts.time?

def extractMoment : String → Extracted moment :=
  extractParts moment Calendar.momentPatterns Calendar.Parts.moment?

/-- Without an offset the moment is at UTC. -/
def extractZoned (s : String) : Extracted zoned :=
  match extractParts zoned Calendar.zonedPatterns Calendar.Parts.zoned? s with
  | .error (.noMoment ..) => (extractMoment s).map fun (m, rest) => (ZonedMoment.utc m, rest)
  | result => result

def extractUuid (s : String) : Extracted uuid :=
  match Text.splitBytes? Uuid.textLength s.toList with
  | none => .error (.shortUuid s)
  | some (candidate, rest) =>
    match Uuid.ofChars? candidate with
    | none => .error (.noUuid s)
    | some u => .ok (u, String.ofList rest)

/-- Takes a member of the type from the front of a text. -/
def extract : (t : Native) → String → Extracted t
  | int k, s => extractInt k s
  | single, s => extractBinary s
  | double, s => extractBinary s
  | boolean, s => extractBoolean s
  | text, s => .ok (s, "")
  | borrowedText, s => .error (.unreadable s borrowedText)
  | bytes, s => extractBytes s
  | decimal, s => extractDecimal s
  | date, s => extractDate s
  | time, s => extractTime s
  | moment, s => extractMoment s
  | zoned, s => extractZoned s
  | uuid, s => extractUuid s
  | optional t, s => .error (.unreadable s (optional t))
  | sequence t, s => .error (.unreadable s (sequence t))

/-- Reads a whole text as a member of the type. -/
def parse : (t : Native) → String → Except ConversionFault t.Carrier
  | optional t, s => (parse t s).map some
  | t, s =>
    match extract t s with
    | .error fault => .error fault
    | .ok (x, rest) => if rest.isEmpty then .ok x else .error (.leftover s t rest)

end PreparedSql.Native
