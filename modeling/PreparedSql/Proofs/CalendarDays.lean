import PreparedSql.Calendar.Moment

/-! The count of days and seconds is undone by reading it as a day and a time. The calendar repeats
every four hundred years, and a year that begins in March has its leap day at its end, so a day is
found by its cycle, then its century, its group of four years and its year in the cycle, then its
month by the days before it. -/
namespace PreparedSql

namespace Date

/-- The years of a cycle are counted from the days in it. One day for every four years is taken
away, one for every century put back, and the last day of the cycle belongs to its last year. -/
theorem yearOfEra_eq {century group year dayOfYear dayOfEra : Nat}
    (bounds : century < 4 ∧ group < 25 ∧ year < 4)
    (within : dayOfYear < 365 ∨
      dayOfYear = 365 ∧ year = 3 ∧ (group < 24 ∨ group = 24 ∧ century = 3))
    (counted : dayOfEra = 36524 * century + 1461 * group + 365 * year + dayOfYear) :
    (dayOfEra - dayOfEra / 1460 + dayOfEra / 36524 - dayOfEra / 146096) / 365 =
      100 * century + 4 * group + year := by
  have centuries : dayOfEra / 36524 = century + dayOfEra / 146096 := by
    rcases within with short | ⟨rfl, rfl, early | ⟨rfl, rfl⟩⟩
    · have first : dayOfEra / 146096 = 0 := by omega
      omega
    · have first : dayOfEra / 146096 = 0 := by omega
      omega
    · omega
  have leapDays : dayOfEra / 1460 = 25 * century + group ∧ dayOfYear < 365 ∨
      dayOfEra / 1460 = 25 * century + group + 1 ∧ 1 ≤ dayOfYear := by
    rcases within with short | ⟨rfl, rfl, early | ⟨rfl, rfl⟩⟩ <;> omega
  rcases leapDays with ⟨leapDays, _⟩ | ⟨leapDays, _⟩ <;> omega

/-- A month is found by the days since the first of March; only the leap day is the 366th. -/
theorem fromMarch_eq {year : Int} {month day fromMarch dayOfYear : Nat}
    (real : (1 ≤ month ∧ month ≤ 12) ∧ (1 ≤ day ∧ day ≤ daysInMonth year month))
    (placed : fromMarch = (month + 9) % 12)
    (counted : dayOfYear + 1 = daysBeforeMonth fromMarch + day) :
    (5 * dayOfYear + 2) / 153 = fromMarch ∧
      (dayOfYear < 365 ∨ dayOfYear = 365 ∧ month = 2 ∧ isLeapYear year = true) := by
  obtain ⟨⟨first, last⟩, ⟨begun, ended⟩⟩ := real
  have known : month = 1 ∨ month = 2 ∨ month = 3 ∨ month = 4 ∨ month = 5 ∨ month = 6 ∨ month = 7 ∨
      month = 8 ∨ month = 9 ∨ month = 10 ∨ month = 11 ∨ month = 12 := by omega
  unfold daysBeforeMonth at counted
  rcases known with rfl | rfl | rfl | rfl | rfl | rfl | rfl | rfl | rfl | rfl | rfl | rfl
  case inr.inl =>
    simp only [daysInMonth, if_true] at ended
    split at ended
    · next leap =>
      refine ⟨by omega, ?_⟩
      rcases Nat.lt_or_ge dayOfYear 365 with short | long
      · exact .inl short
      · exact .inr ⟨by omega, rfl, leap⟩
    · exact ⟨by omega, by omega⟩
  all_goals
    simp only [daysInMonth] at ended
    simp at ended
    exact ⟨by omega, by omega⟩

/-- A year has its place in a cycle of four hundred: a century, a group of four, and a year. -/
theorem exists_place (year : Int) :
    ∃ (era : Int) (century group last : Nat), (century < 4 ∧ group < 25 ∧ last < 4) ∧
      year = 400 * era + (100 * century + 4 * group + last : Nat) := by
  have inCycle : ((year % 400).toNat : Int) = year % 400 := Int.toNat_of_nonneg (by omega)
  generalize (year % 400).toNat = n at inCycle
  refine ⟨year / 400, n / 100, n % 100 / 4, n % 4, ⟨by omega, by omega, by omega⟩, ?_⟩
  omega

section

variable {year era : Int} {century group last dayOfYear dayOfEra : Nat}

theorem daysBeforeMarch_eq (bounds : century < 4 ∧ group < 25 ∧ last < 4)
    (placed : year = 400 * era + (100 * century + 4 * group + last : Nat)) :
    daysBeforeMarch year =
      146097 * era + (36524 * century + 1461 * group + 365 * last : Nat) := by
  unfold daysBeforeMarch
  omega

/-- The leap day ends the last year of a group, unless the group ends a century but no cycle. -/
theorem leapDay_last (bounds : century < 4 ∧ group < 25 ∧ last < 4)
    (placed : year - 1 = 400 * era + (100 * century + 4 * group + last : Nat))
    (leap : isLeapYear year = true) : last = 3 ∧ (group < 24 ∨ group = 24 ∧ century = 3) := by
  simp only [isLeapYear, Bool.and_eq_true, Bool.or_eq_true, beq_iff_eq, bne_iff_ne] at leap
  omega

theorem dayOfEra_lt (bounds : century < 4 ∧ group < 25 ∧ last < 4)
    (within : dayOfYear < 365 ∨
      dayOfYear = 365 ∧ last = 3 ∧ (group < 24 ∨ group = 24 ∧ century = 3))
    (counted : dayOfEra = 36524 * century + 1461 * group + 365 * last + dayOfYear) :
    dayOfEra < 146097 := by
  omega

theorem era_eq (era : Int) (inside : dayOfEra < 146097) :
    (146097 * era + dayOfEra) / 146097 = era ∧
      ((146097 * era + dayOfEra) % 146097).toNat = dayOfEra := by
  omega

theorem dayOfYear_eq (bounds : century < 4 ∧ group < 25 ∧ last < 4)
    (counted : dayOfEra = 36524 * century + 1461 * group + 365 * last + dayOfYear) :
    dayOfEra - (365 * (100 * century + 4 * group + last) +
      (100 * century + 4 * group + last) / 4 - (100 * century + 4 * group + last) / 100) =
        dayOfYear := by
  omega

end

/-- Every day of the calendar is found again by its number. -/
theorem ofDays?_toDays (d : Date) : ofDays? d.toDays = some d := by
  obtain ⟨year, month, day, range, months, days⟩ := d
  obtain ⟨fromMarch, placed⟩ : ∃ m, m = (month + 9) % 12 := ⟨_, rfl⟩
  obtain ⟨dayOfYear, counted⟩ : ∃ n, n + 1 = daysBeforeMonth fromMarch + day :=
    ⟨daysBeforeMonth fromMarch + day - 1, by omega⟩
  have month_back : (if fromMarch < 10 then fromMarch + 3 else fromMarch - 9) = month := by
    split <;> omega
  have day_back : dayOfYear - daysBeforeMonth fromMarch + 1 = day := by omega
  -- The year that begins in March, and its place in the cycle.
  obtain ⟨marchYear, shifted⟩ : ∃ y, y = if month ≤ 2 then year - 1 else year := ⟨_, rfl⟩
  obtain ⟨era, century, group, last, bounds, inCycle⟩ := exists_place marchYear
  obtain ⟨dayOfEra, inEra⟩ : ∃ n, n = 36524 * century + 1461 * group + 365 * last + dayOfYear :=
    ⟨_, rfl⟩
  have year_back : era * 400 + (100 * century + 4 * group + last : Nat) +
      (if month ≤ 2 then 1 else 0) = year := by
    split at shifted <;> simp only [*, if_true, if_false] <;> omega
  have number : toDays ⟨year, month, day, range, months, days⟩ + epochOffset =
      146097 * era + dayOfEra := by
    simp only [toDays, ← shifted, ← placed, daysBeforeMarch_eq bounds inCycle]
    omega
  obtain ⟨month_eq, within⟩ := fromMarch_eq ⟨months, days⟩ placed counted
  have short : dayOfYear < 365 ∨
      dayOfYear = 365 ∧ last = 3 ∧ (group < 24 ∨ group = 24 ∧ century = 3) := by
    rcases within with short | ⟨longest, rfl, leap⟩
    · exact .inl short
    · exact .inr ⟨longest, leapDay_last bounds (shifted.symm.trans inCycle) leap⟩
  obtain ⟨cycle, rest⟩ := era_eq era (dayOfEra_lt bounds short inEra)
  simp only [ofDays?, number, cycle, rest, yearOfEra_eq bounds short inEra,
    dayOfYear_eq bounds inEra, month_eq, month_back, year_back, day_back]
  exact dif_pos ⟨range, months, days⟩

end Date

namespace Moment

/-- Every moment is found again by its seconds. -/
theorem ofSeconds?_toSeconds (m : Moment) : ofSeconds? m.toSeconds m.time.nanosecond = some m := by
  obtain ⟨date, ⟨hour, minute, second, nanosecond, on_clock⟩⟩ := m
  have seconds : TimeOfDay.seconds ⟨hour, minute, second, nanosecond, on_clock⟩ =
      3600 * hour + 60 * minute + second := rfl
  have day : (86400 * date.toDays + (3600 * hour + 60 * minute + second : Nat) : Int) / 86400 =
      date.toDays := by omega
  have rest : ((86400 * date.toDays + (3600 * hour + 60 * minute + second : Nat) : Int) %
      86400).toNat = 3600 * hour + 60 * minute + second := by omega
  have hours : (3600 * hour + 60 * minute + second) / 3600 = hour := by omega
  have minutes : (3600 * hour + 60 * minute + second) / 60 % 60 = minute := by omega
  have ending : (3600 * hour + 60 * minute + second) % 60 = second := by omega
  have time : TimeOfDay.of? hour minute second nanosecond =
      some ⟨hour, minute, second, nanosecond, on_clock⟩ := dif_pos on_clock
  simp only [ofSeconds?, toSeconds, seconds, day, rest, hours, minutes, ending, time,
    Date.ofDays?_toDays]
  rfl

end Moment

namespace ZonedMoment

/-- A moment with an offset is read at UTC as the moment of the calendar at the same instant. -/
theorem atUtc?_eq {z : ZonedMoment} {m : Moment} (same : (utc m).sameInstant z = true) :
    z.atUtc? = some m := by
  simp only [sameInstant, utc, Bool.and_eq_true, beq_iff_eq, Int.sub_zero] at same
  obtain ⟨seconds, nanosecond⟩ := same
  rw [atUtc?, ← seconds, ← nanosecond, Moment.ofSeconds?_toSeconds]

end ZonedMoment

end PreparedSql
