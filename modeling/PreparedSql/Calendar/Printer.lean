import PreparedSql.Calendar.Moment
import PreparedSql.Text.Basic

/-! The texts of days and times: as statements hold them, and as messages
show them. -/
namespace PreparedSql

open Text (padded paddedInt)

/-- The places of a fraction of a second without the zeros at its end, at least one. -/
def fractionText (nanosecond : Nat) : String :=
  let places := (padded 9 nanosecond).toList
  let shown := (places.reverse.dropWhile (· == '0')).reverse
  if shown.isEmpty then "0" else String.ofList shown

namespace Date

/-- The year takes four characters, its sign among them. -/
def sqlText (d : Date) : String :=
  paddedInt 4 d.year ++ "-" ++ padded 2 d.month ++ "-" ++ padded 2 d.day

/-- The year takes four digits behind its sign. -/
def messageText (d : Date) : String :=
  (if d.year < 0 then "-" else "") ++ padded 4 d.year.natAbs ++ "-" ++ padded 2 d.month ++ "-"
    ++ padded 2 d.day

end Date

namespace TimeOfDay

/-- Two digits each, and the fraction. -/
def sqlText (t : TimeOfDay) : String :=
  padded 2 t.hour ++ ":" ++ padded 2 t.minute ++ ":" ++ padded 2 t.second ++ "."
    ++ fractionText t.nanosecond

/-- The hour without a leading zero. -/
def messageText (t : TimeOfDay) : String :=
  toString t.hour ++ ":" ++ padded 2 t.minute ++ ":" ++ padded 2 t.second ++ "."
    ++ fractionText t.nanosecond

end TimeOfDay

namespace Moment

def sqlText (m : Moment) : String :=
  m.date.sqlText ++ " " ++ m.time.sqlText

def messageText (m : Moment) : String :=
  m.date.messageText ++ " " ++ m.time.messageText

end Moment

namespace ZonedMoment

/-- Sign, hours, minutes and seconds of an offset. -/
def offsetText (offset : Int) : String :=
  let n := offset.natAbs
  (if offset < 0 then "-" else "+") ++ padded 2 (n / 3600) ++ ":" ++ padded 2 (n / 60 % 60) ++ ":"
    ++ padded 2 (n % 60)

def messageText (z : ZonedMoment) : String :=
  z.moment.messageText ++ " " ++ offsetText z.offset

end ZonedMoment

end PreparedSql
