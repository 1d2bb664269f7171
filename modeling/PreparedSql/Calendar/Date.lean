/-! Days of the proleptic Gregorian calendar from the year -9999 to 9999, and
their count from the first of January 2000. -/
namespace PreparedSql

def isLeapYear (year : Int) : Bool :=
  year % 4 == 0 && (year % 100 != 0 || year % 400 == 0)

def daysInMonth (year : Int) (month : Nat) : Nat :=
  if month = 2 then if isLeapYear year then 29 else 28
  else if month = 4 ∨ month = 6 ∨ month = 9 ∨ month = 11 then 30
  else 31

/-- A day of the calendar. -/
structure Date where
  year : Int
  month : Nat
  day : Nat
  exists_day : (-9999 ≤ year ∧ year ≤ 9999) ∧ (1 ≤ month ∧ month ≤ 12) ∧
    (1 ≤ day ∧ day ≤ daysInMonth year month)
  deriving DecidableEq

namespace Date

/-- The day with these parts, when there is one. -/
def of? (year : Int) (month day : Nat) : Option Date :=
  if h : (-9999 ≤ year ∧ year ≤ 9999) ∧ (1 ≤ month ∧ month ≤ 12) ∧
      (1 ≤ day ∧ day ≤ daysInMonth year month) then
    some ⟨year, month, day, h⟩
  else none

/-- The first of January 2000. -/
def epoch : Date := ⟨2000, 1, 1, by decide⟩

/-- Days before the first of March of a year, counted from the year zero. -/
def daysBeforeMarch (year : Int) : Int :=
  365 * year + year / 4 - year / 100 + year / 400

/-- Days of the months from March on that lie before the month. -/
def daysBeforeMonth (fromMarch : Nat) : Nat :=
  (153 * fromMarch + 2) / 5

/-- Days between the first of March of the year zero and 2000-01-01. -/
def epochOffset : Int := 730425

/-- Days since the first of January 2000. -/
def toDays (d : Date) : Int :=
  let year := if d.month ≤ 2 then d.year - 1 else d.year
  let fromMarch := (d.month + 9) % 12
  daysBeforeMarch year + daysBeforeMonth fromMarch + d.day - 1 - epochOffset

/-- The day so many days after the first of January 2000, when the calendar has it. -/
def ofDays? (days : Int) : Option Date :=
  let z := days + epochOffset
  let era := z / 146097
  let dayOfEra := (z % 146097).toNat
  let yearOfEra := (dayOfEra - dayOfEra / 1460 + dayOfEra / 36524 - dayOfEra / 146096) / 365
  let dayOfYear := dayOfEra - (365 * yearOfEra + yearOfEra / 4 - yearOfEra / 100)
  let fromMarch := (5 * dayOfYear + 2) / 153
  let month := if fromMarch < 10 then fromMarch + 3 else fromMarch - 9
  let year := era * 400 + yearOfEra + if month ≤ 2 then 1 else 0
  of? year month (dayOfYear - daysBeforeMonth fromMarch + 1)

end Date

end PreparedSql
