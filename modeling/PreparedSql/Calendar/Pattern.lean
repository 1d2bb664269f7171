import PreparedSql.Calendar.Moment
import PreparedSql.Text.Basic

/-! Reading days and times by patterns of fields of fixed width. A pattern
matches the front of a text; whether the parts it reads exist in the calendar
is a second question. -/
namespace PreparedSql.Calendar

/-- A piece of a pattern. -/
inductive Field where
  | mark (c : Char)
  | year | month | day
  | hour | minute | second
  | subsecond
  | offsetHour | offsetMinute
  deriving DecidableEq, Repr

/-- The parts read so far. -/
structure Parts where
  year : Int := 0
  month : Nat := 0
  day : Nat := 0
  hour : Nat := 0
  minute : Nat := 0
  second : Nat := 0
  nanosecond : Nat := 0
  offsetNegative : Bool := false
  offsetHour : Nat := 0
  offsetMinute : Nat := 0

/-- Exactly `count` digits from the front. -/
def digits? (count : Nat) (cs : List Char) : Option (Nat × List Char) :=
  let taken := cs.take count
  if taken.length = count ∧ taken.all Char.isDigit then
    some (Text.digitsValue taken, cs.drop count)
  else none

/-- Two digits whose number lies between the limits. -/
def twoDigits? (least greatest : Nat) (cs : List Char) : Option (Nat × List Char) := do
  let (n, rest) ← digits? 2 cs
  if least ≤ n ∧ n ≤ greatest then some (n, rest) else none

/-- The first nine digits as nanoseconds. -/
def nanoseconds (digits : List Char) : Nat :=
  let shown := digits.take 9
  Text.digitsValue shown * Nat.pow 10 (9 - shown.length)

/-- Reads one field from the front. -/
def Field.read? (p : Parts) (cs : List Char) : Field → Option (Parts × List Char)
  | .mark c => if cs.head? = some c then some (p, cs.tail) else none
  | .year =>
    let (negative, rest) := match cs with
      | '-' :: rest => (true, rest)
      | '+' :: rest => (false, rest)
      | _ => (false, cs)
    (digits? 4 rest).map fun (n, rest) =>
      ({ p with year := if negative then -(n : Int) else n }, rest)
  | .month => (twoDigits? 1 12 cs).map fun (n, rest) => ({ p with month := n }, rest)
  | .day => (twoDigits? 1 31 cs).map fun (n, rest) => ({ p with day := n }, rest)
  | .hour => (twoDigits? 0 23 cs).map fun (n, rest) => ({ p with hour := n }, rest)
  | .minute => (twoDigits? 0 59 cs).map fun (n, rest) => ({ p with minute := n }, rest)
  | .second => (twoDigits? 0 60 cs).map fun (n, rest) => ({ p with second := n }, rest)
  | .subsecond =>
    let run := cs.takeWhile Char.isDigit
    if run.isEmpty then none
    else some ({ p with nanosecond := nanoseconds run }, cs.dropWhile Char.isDigit)
  | .offsetHour =>
    match cs with
    | c :: rest =>
      if c = '+' ∨ c = '-' then
        (twoDigits? 0 25 rest).map fun (n, rest) =>
          ({ p with offsetNegative := c = '-', offsetHour := n }, rest)
      else none
    | [] => none
  | .offsetMinute => (twoDigits? 0 59 cs).map fun (n, rest) => ({ p with offsetMinute := n }, rest)

/-- Reads the fields one after the other from the front. -/
def matchFields? : Parts → List Field → List Char → Option (Parts × List Char)
  | p, [], cs => some (p, cs)
  | p, field :: fields, cs => do
    let (p, rest) ← field.read? p cs
    matchFields? p fields rest

/-- The parts by the first pattern that matches. -/
def firstMatch? (patterns : List (List Field)) (cs : List Char) : Option (Parts × List Char) :=
  patterns.findSome? fun fields => matchFields? {} fields cs

namespace Parts

def date? (p : Parts) : Option Date :=
  Date.of? p.year p.month p.day

def time? (p : Parts) : Option TimeOfDay :=
  TimeOfDay.of? p.hour p.minute p.second p.nanosecond

def moment? (p : Parts) : Option Moment := do
  return ⟨← p.date?, ← p.time?⟩

def offset (p : Parts) : Int :=
  let seconds : Int := 3600 * p.offsetHour + 60 * p.offsetMinute
  if p.offsetNegative then -seconds else seconds

def zoned? (p : Parts) : Option ZonedMoment := do
  return ⟨← p.moment?, p.offset⟩

end Parts

/-- Year, month and day with hyphens between. -/
def datePattern : List Field :=
  [.year, .mark '-', .month, .mark '-', .day]

/-- Hours and minutes. -/
def minutePattern : List Field :=
  [.hour, .mark ':', .minute]

/-- Hours, minutes and seconds. -/
def secondPattern : List Field :=
  minutePattern ++ [.mark ':', .second]

/-- Hours, minutes, seconds and a fraction. -/
def fractionPattern : List Field :=
  secondPattern ++ [.mark '.', .subsecond]

def datePatterns : List (List Field) := [datePattern]

/-- The finest first, for a coarser one matches the front of a finer text. -/
def timePatterns : List (List Field) :=
  [fractionPattern, secondPattern, minutePattern]

/-- A day and a time with the mark between. -/
def momentPattern (separator : Char) (time : List Field) : List Field :=
  datePattern ++ .mark separator :: time

def momentPatterns : List (List Field) :=
  timePatterns.map (momentPattern 'T') ++ timePatterns.map (momentPattern ' ')

/-- Behind a `T` the offset has minutes; behind a blank it may leave them out. -/
def zonedPatterns : List (List Field) :=
  let hours := [Field.offsetHour]
  let minutes := hours ++ [.mark ':', .offsetMinute]
  [momentPattern 'T' fractionPattern ++ minutes,
    momentPattern 'T' secondPattern ++ minutes,
    momentPattern ' ' fractionPattern ++ minutes,
    momentPattern ' ' fractionPattern ++ hours,
    momentPattern ' ' secondPattern ++ minutes,
    momentPattern ' ' secondPattern ++ hours]

end PreparedSql.Calendar
