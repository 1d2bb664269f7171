import PreparedSql.Calendar.Date

/-! Times of day, local moments, and moments at an offset from UTC. -/
namespace PreparedSql

/-- A time of day, to the nanosecond. -/
structure TimeOfDay where
  hour : Nat
  minute : Nat
  second : Nat
  nanosecond : Nat
  on_clock : hour < 24 ∧ minute < 60 ∧ second < 60 ∧ nanosecond < 1000000000
  deriving DecidableEq

namespace TimeOfDay

/-- The time with these parts, when the clock shows it. -/
def of? (hour minute second nanosecond : Nat) : Option TimeOfDay :=
  if h : hour < 24 ∧ minute < 60 ∧ second < 60 ∧ nanosecond < 1000000000 then
    some ⟨hour, minute, second, nanosecond, h⟩
  else none

def midnight : TimeOfDay := ⟨0, 0, 0, 0, by decide⟩

/-- Seconds since midnight. -/
def seconds (t : TimeOfDay) : Nat :=
  3600 * t.hour + 60 * t.minute + t.second

end TimeOfDay

/-- A day and a time, at no particular offset. -/
structure Moment where
  date : Date
  time : TimeOfDay
  deriving DecidableEq

namespace Moment

/-- Seconds since the start of 2000, as if the moment were UTC. -/
def toSeconds (m : Moment) : Int :=
  86400 * m.date.toDays + m.time.seconds

/-- The moment so many seconds after the start of 2000. -/
def ofSeconds? (seconds : Int) (nanosecond : Nat) : Option Moment := do
  let date ← Date.ofDays? (seconds / 86400)
  let rest := (seconds % 86400).toNat
  let time ← TimeOfDay.of? (rest / 3600) (rest / 60 % 60) (rest % 60) nanosecond
  return ⟨date, time⟩

/-- The start of a day. -/
def startOf (date : Date) : Moment := ⟨date, .midnight⟩

end Moment

/-- A local moment and its offset from UTC in seconds. -/
structure ZonedMoment where
  moment : Moment
  offset : Int
  deriving DecidableEq

namespace ZonedMoment

/-- The local moment at UTC, when the calendar has it. -/
def atUtc? (z : ZonedMoment) : Option Moment :=
  Moment.ofSeconds? (z.moment.toSeconds - z.offset) z.moment.time.nanosecond

/-- Two moments are equal when they are the same instant. -/
def sameInstant (a b : ZonedMoment) : Bool :=
  a.moment.toSeconds - a.offset == b.moment.toSeconds - b.offset &&
    a.moment.time.nanosecond == b.moment.time.nanosecond

/-- A moment at UTC. -/
def utc (m : Moment) : ZonedMoment := ⟨m, 0⟩

end ZonedMoment

end PreparedSql
