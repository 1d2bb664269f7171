import PreparedSql.Native.OfValue
import PreparedSql.Proofs.CalendarDays
import PreparedSql.Proofs.QuotedReading
import PreparedSql.Proofs.WrittenNumbers

/-! Days and times read back from their literals. Every field of a pattern finds the digits that
were written for it, and no pattern that is tried sooner matches. The one exception is the year:
its sign takes one of the four characters it is written with, and the reader wants four digits
behind a sign, so a year between -999 and -1 is written with one digit too few and its texts are
refused. -/
namespace PreparedSql

open Text

namespace Calendar

variable {p : Parts} {cs rest : List Char}

/-! ### Fields -/

theorem digits?_append {count : Nat} (digits : Digits cs) (counted : cs.length = count) :
    digits? count (cs ++ rest) = some (digitsValue cs, rest) := by
  have taken : (cs ++ rest).take count = cs := List.take_left' counted
  have dropped : (cs ++ rest).drop count = rest := List.drop_left' counted
  have all : cs.all Char.isDigit = true := List.all_eq_true.mpr digits
  simp [digits?, taken, dropped, counted, all]

theorem digits?_padded {width n : Nat} (wide : 0 < width) (small : n < 10 ^ width) :
    digits? width ((padded width n).toList ++ rest) = some (n, rest) := by
  rw [digits?_append (digits_padded width n) (length_padded_of_lt wide small), digitsValue_padded]

theorem twoDigits?_padded {least greatest n : Nat} (bounds : least ≤ n ∧ n ≤ greatest)
    (small : n < 100) :
    twoDigits? least greatest ((padded 2 n).toList ++ rest) = some (n, rest) := by
  rw [twoDigits?, digits?_padded (by decide) small]
  exact if_pos bounds

/-- The places of a fraction that are shown, and zeros behind them. -/
theorem fraction_places (nanosecond : Nat) :
    ∃ shown zeros, (padded 9 nanosecond).toList = shown ++ List.replicate zeros '0' ∧
      (fractionText nanosecond).toList = if shown.isEmpty then ['0'] else shown := by
  obtain ⟨places, written⟩ : ∃ places, places = (padded 9 nanosecond).toList := ⟨_, rfl⟩
  obtain ⟨shown, kept⟩ : ∃ shown, shown = (places.reverse.dropWhile (· == '0')).reverse := ⟨_, rfl⟩
  refine ⟨shown, (places.reverse.takeWhile (· == '0')).length, ?_, ?_⟩
  · have zeros : places.reverse.takeWhile (· == '0') =
        List.replicate (places.reverse.takeWhile (· == '0')).length '0' := by
      refine List.eq_replicate_of_mem fun c member => ?_
      simpa using List.mem_takeWhile_imp member
    calc (padded 9 nanosecond).toList = places := written.symm
      _ = (places.reverse.takeWhile (· == '0') ++ places.reverse.dropWhile (· == '0')).reverse := by
        rw [List.takeWhile_append_dropWhile, List.reverse_reverse]
      _ = shown ++ (places.reverse.takeWhile (· == '0')).reverse := by
        rw [List.reverse_append, kept]
      _ = shown ++ List.replicate (places.reverse.takeWhile (· == '0')).length '0' := by
        rw [zeros, List.reverse_replicate, List.length_replicate]
  · rw [fractionText, ← written, ← kept]
    split
    · rfl
    · exact String.toList_ofList

theorem fractionText_ne_nil (nanosecond : Nat) : (fractionText nanosecond).toList ≠ [] := by
  obtain ⟨shown, zeros, _, written⟩ := fraction_places nanosecond
  rw [written]
  split
  · exact List.cons_ne_nil _ _
  · next some => exact fun nothing => some (List.isEmpty_iff.mpr nothing)

theorem digits_fractionText (nanosecond : Nat) : Digits (fractionText nanosecond).toList := by
  obtain ⟨shown, zeros, places, written⟩ := fraction_places nanosecond
  have digits := digits_padded 9 nanosecond
  rw [places, digits_append] at digits
  rw [written]
  split
  · exact digits_zeros 1
  · exact digits.1

/-- Every nanosecond survives the loss of the zeros at its end. -/
theorem nanoseconds_fractionText {nanosecond : Nat} (below : nanosecond < 1000000000) :
    nanoseconds (fractionText nanosecond).toList = nanosecond := by
  obtain ⟨shown, zeros, places, written⟩ := fraction_places nanosecond
  have nine : (shown ++ List.replicate zeros '0').length = 9 := by
    rw [← places]
    exact length_padded_of_lt (by decide) below
  have value : 10 ^ zeros * digitsValue shown = nanosecond := by
    rw [← digitsValue_padded 9 nanosecond, places, digitsValue_append, digitsValue_zeros,
      List.length_replicate, Nat.add_zero]
  rw [List.length_append, List.length_replicate] at nine
  rw [written]
  split
  · next none =>
    rw [List.isEmpty_iff.mp none] at value
    have zero : nanosecond = 0 := by
      rw [← value]
      exact Nat.mul_zero _
    rw [zero]
    decide
  · have whole : shown.take 9 = shown := List.take_of_length_le (by omega)
    have left : 9 - shown.length = zeros := by omega
    rw [nanoseconds, whole, left, ← value]
    exact Nat.mul_comm _ _

end Calendar

theorem Date.toList_sqlText (d : Date) (rest : List Char) :
    d.sqlText.toList ++ rest = (paddedInt 4 d.year).toList ++
      '-' :: ((padded 2 d.month).toList ++ '-' :: ((padded 2 d.day).toList ++ rest)) := by
  simp [Date.sqlText]

theorem Moment.toList_sqlText (m : Moment) :
    m.sqlText.toList = m.date.sqlText.toList ++ ' ' :: m.time.sqlText.toList := by
  simp [Moment.sqlText]

/-! ### Years -/

/-- The year is written with fewer than four digits: a sign takes the place of one. -/
def Date.HasShortYear (d : Date) : Prop :=
  -1000 < d.year ∧ d.year < 0

instance (d : Date) : Decidable d.HasShortYear :=
  inferInstanceAs (Decidable (_ ∧ _))

namespace Calendar

variable {p : Parts} {cs rest : List Char}

theorem read?_bareYear {n : Nat} (small : n < 10 ^ 4) :
    Field.read? p ((padded 4 n).toList ++ rest) .year = some ({ p with year := n }, rest) := by
  have digits := digits_padded 4 n
  have read : digits? 4 ((padded 4 n).toList ++ rest) = some (n, rest) :=
    digits?_padded (by decide) small
  cases listed : (padded 4 n).toList with
  | nil => exact absurd listed (padded_ne_nil _ _)
  | cons c cs =>
    rw [listed] at digits read
    obtain ⟨minus, plus⟩ := not_sign_of_isDigit (digits c List.mem_cons_self)
    rw [List.cons_append] at read ⊢
    simp [Field.read?, minus, plus, read]

theorem read?_signedYear (digits : Digits cs) (counted : cs.length = 4) :
    Field.read? p ('-' :: (cs ++ rest)) .year =
      some ({ p with year := -(digitsValue cs : Int) }, rest) := by
  simp [Field.read?, digits?_append digits counted]

theorem read?_year {d : Date} (whole : ¬ d.HasShortYear) :
    Field.read? p ((paddedInt 4 d.year).toList ++ rest) .year =
      some ({ p with year := d.year }, rest) := by
  obtain ⟨first, last⟩ := d.exists_day.1
  have four : d.year.natAbs < 10 ^ 4 := by omega
  by_cases negative : d.year < 0
  · -- Four digits in spite of the sign, for the year is far enough from zero.
    have long : 1000 ≤ d.year.natAbs := by
      unfold Date.HasShortYear at whole
      omega
    have counted : (padded 3 d.year.natAbs).toList.length = 4 := by
      have most := (Nat.length_toDigits_le_iff (b := 10) (by decide) (by decide)).mpr four
      have least := mt (Nat.length_toDigits_le_iff (b := 10) (k := 3) (by decide) (by decide)).mp
        (Nat.not_lt.mpr long)
      rw [length_padded]
      omega
    have value : -(d.year.natAbs : Int) = d.year := by omega
    rw [toList_paddedInt_of_neg 4 negative, List.cons_append,
      read?_signedYear (digits_padded 3 _) counted, digitsValue_padded, value]
  · have value : (d.year.natAbs : Int) = d.year := by omega
    have written : paddedInt 4 d.year = padded 4 d.year.natAbs := if_neg negative
    rw [written, read?_bareYear four, value]

theorem digits?_short {count : Nat} {c : Char} (fewer : cs.length < count)
    (other : c.isDigit = false) : digits? count (cs ++ c :: rest) = none := by
  obtain ⟨more, counted⟩ : ∃ more, count = cs.length + (more + 1) :=
    ⟨count - cs.length - 1, by omega⟩
  have taken : (cs ++ c :: rest).take count = cs ++ c :: rest.take more := by
    rw [counted, List.take_length_add_append, List.take_succ_cons]
  have stopped : ¬ (cs ++ c :: rest.take more).all Char.isDigit = true := by
    simp [other]
  rw [digits?, taken]
  exact if_neg fun found => stopped found.2

/-- Behind the sign stand three digits where four are wanted. -/
theorem read?_shortYear {d : Date} (short : d.HasShortYear) :
    Field.read? p ((paddedInt 4 d.year).toList ++ '-' :: rest) .year = none := by
  obtain ⟨near, negative⟩ := short
  have counted : (padded 3 d.year.natAbs).toList.length = 3 :=
    length_padded_of_lt (by decide) (by omega)
  have unread : digits? 4 ((padded 3 d.year.natAbs).toList ++ '-' :: rest) = none :=
    digits?_short (by omega) (by decide)
  rw [toList_paddedInt_of_neg 4 negative, List.cons_append]
  simp [Field.read?, unread]

/-! ### Patterns -/

/-- A pattern is matched by its front, then by what is left of it. -/
theorem matchFields?_append (p : Parts) (front back : List Field) (cs : List Char) :
    matchFields? p (front ++ back) cs =
      (matchFields? p front cs).bind fun read => matchFields? read.1 back read.2 := by
  induction front generalizing p cs with
  | nil => rfl
  | cons field front ih =>
    rw [List.cons_append, matchFields?, matchFields?]
    cases field.read? p cs with
    | none => rfl
    | some read => exact ih read.1 read.2

/-- The parts with the day of a date. -/
def Parts.onDay (p : Parts) (d : Date) : Parts :=
  { p with year := d.year, month := d.month, day := d.day }

/-- The parts with the hour, the minute and the second of a time. -/
def Parts.atSecond (p : Parts) (t : TimeOfDay) : Parts :=
  { p with hour := t.hour, minute := t.minute, second := t.second }

/-- The parts with all of a time. -/
def Parts.atTime (p : Parts) (t : TimeOfDay) : Parts :=
  { p.atSecond t with nanosecond := t.nanosecond }

theorem match_date {d : Date} (whole : ¬ d.HasShortYear) :
    matchFields? p datePattern (d.sqlText.toList ++ rest) = some (p.onDay d, rest) := by
  obtain ⟨_, months, first, last⟩ := d.exists_day
  have days : d.day ≤ 31 := by
    refine Nat.le_trans last ?_
    unfold daysInMonth
    split
    · split <;> decide
    · split <;> decide
  have month (rest : List Char) :
      twoDigits? 1 12 ((padded 2 d.month).toList ++ rest) = some (d.month, rest) :=
    twoDigits?_padded months (by omega)
  have day : twoDigits? 1 31 ((padded 2 d.day).toList ++ rest) = some (d.day, rest) :=
    twoDigits?_padded ⟨first, days⟩ (by omega)
  rw [Date.toList_sqlText, datePattern, matchFields?, read?_year whole]
  simp [matchFields?, Field.read?, month, day, Parts.onDay]

theorem match_shortDate {d : Date} (short : d.HasShortYear) (fields : List Field) :
    matchFields? p (datePattern ++ fields) (d.sqlText.toList ++ rest) = none := by
  rw [Date.toList_sqlText, datePattern, List.cons_append, matchFields?, read?_shortYear short]
  rfl

theorem match_second (t : TimeOfDay) :
    matchFields? p secondPattern t.sqlText.toList =
      some (p.atSecond t, '.' :: (fractionText t.nanosecond).toList) := by
  obtain ⟨hours, minutes, seconds, _⟩ := t.on_clock
  have hour (rest : List Char) :
      twoDigits? 0 23 ((padded 2 t.hour).toList ++ rest) = some (t.hour, rest) :=
    twoDigits?_padded (by omega) (by omega)
  have minute (rest : List Char) :
      twoDigits? 0 59 ((padded 2 t.minute).toList ++ rest) = some (t.minute, rest) :=
    twoDigits?_padded (by omega) (by omega)
  have second (rest : List Char) :
      twoDigits? 0 60 ((padded 2 t.second).toList ++ rest) = some (t.second, rest) :=
    twoDigits?_padded (by omega) (by omega)
  have written : t.sqlText.toList = (padded 2 t.hour).toList ++
      ':' :: ((padded 2 t.minute).toList ++ ':' :: ((padded 2 t.second).toList ++
        '.' :: (fractionText t.nanosecond).toList)) := by
    simp [TimeOfDay.sqlText]
  rw [written]
  simp [secondPattern, minutePattern, matchFields?, Field.read?, hour, minute, second,
    Parts.atSecond]

/-- A fraction takes all that is left of a text. -/
theorem read?_subsecond {nanosecond : Nat} (below : nanosecond < 1000000000) :
    Field.read? p (fractionText nanosecond).toList .subsecond =
      some ({ p with nanosecond := nanosecond }, []) := by
  have digits := digits_fractionText nanosecond
  have nothing : (fractionText nanosecond).toList.dropWhile Char.isDigit = [] :=
    List.dropWhile_eq_nil_iff.mpr digits
  have filled : (fractionText nanosecond).toList.isEmpty = false :=
    List.isEmpty_eq_false_iff.mpr (fractionText_ne_nil nanosecond)
  simp only [Field.read?, takeWhile_digits digits, nothing, filled, nanoseconds_fractionText below]
  rfl

theorem match_mark (c : Char) (fields : List Field) :
    matchFields? p (.mark c :: fields) (c :: rest) = matchFields? p fields rest := by
  simp [matchFields?, Field.read?]

theorem match_otherMark {c d : Char} (other : d ≠ c) (fields : List Field) :
    matchFields? p (.mark c :: fields) (d :: rest) = none := by
  simp [matchFields?, Field.read?, other]

theorem match_fraction (t : TimeOfDay) (fields : List Field) :
    matchFields? p (fractionPattern ++ fields) t.sqlText.toList =
      matchFields? (p.atTime t) fields [] := by
  rw [fractionPattern, List.append_assoc, matchFields?_append, match_second, Option.bind_some,
    List.cons_append, match_mark, List.singleton_append, matchFields?,
    read?_subsecond t.on_clock.2.2.2]
  rfl

theorem firstMatch?_time (t : TimeOfDay) :
    firstMatch? timePatterns t.sqlText.toList = some (({} : Parts).atTime t, []) := by
  have fraction := match_fraction (p := {}) t []
  rw [List.append_nil] at fraction
  rw [firstMatch?, timePatterns, List.findSome?_cons, fraction]
  rfl

/-- No moment is written with a letter between its day and its time. -/
theorem match_letter (m : Moment) (time fields : List Field) :
    matchFields? p (momentPattern 'T' time ++ fields) m.sqlText.toList = none := by
  rw [momentPattern, List.append_assoc, Moment.toList_sqlText]
  by_cases short : m.date.HasShortYear
  · exact match_shortDate short _
  · rw [matchFields?_append, match_date short, Option.bind_some, List.cons_append]
    exact match_otherMark (by decide) _

theorem match_blank {m : Moment} (whole : ¬ m.date.HasShortYear) (time fields : List Field) :
    matchFields? p (momentPattern ' ' time ++ fields) m.sqlText.toList =
      matchFields? (p.onDay m.date) (time ++ fields) m.time.sqlText.toList := by
  rw [momentPattern, List.append_assoc, Moment.toList_sqlText, matchFields?_append,
    match_date whole, Option.bind_some, List.cons_append, match_mark]

theorem match_shortMoment {m : Moment} (short : m.date.HasShortYear) (separator : Char)
    (time fields : List Field) :
    matchFields? p (momentPattern separator time ++ fields) m.sqlText.toList = none := by
  rw [momentPattern, List.append_assoc, Moment.toList_sqlText]
  exact match_shortDate short _

/-! ### Whole texts -/

theorem firstMatch?_date {d : Date} (whole : ¬ d.HasShortYear) :
    firstMatch? datePatterns d.sqlText.toList = some (({} : Parts).onDay d, []) := by
  have read : matchFields? {} datePattern (d.sqlText.toList ++ []) = _ := match_date whole
  rw [List.append_nil] at read
  rw [firstMatch?, datePatterns, List.findSome?_cons, read]

theorem firstMatch?_shortDate {d : Date} (short : d.HasShortYear) :
    firstMatch? datePatterns d.sqlText.toList = none := by
  have unread : matchFields? {} (datePattern ++ []) (d.sqlText.toList ++ []) = none :=
    match_shortDate short []
  rw [List.append_nil, List.append_nil] at unread
  rw [firstMatch?, datePatterns, List.findSome?_cons, unread]
  rfl

theorem firstMatch?_moment {m : Moment} (whole : ¬ m.date.HasShortYear) :
    firstMatch? momentPatterns m.sqlText.toList =
      some ((({} : Parts).onDay m.date).atTime m.time, []) := by
  have letters : (timePatterns.map (momentPattern 'T')).findSome?
      (fun fields => matchFields? {} fields m.sqlText.toList) = none := by
    rw [List.findSome?_map, List.findSome?_eq_none_iff]
    intro time _
    have unread := match_letter (p := {}) m time []
    rwa [List.append_nil] at unread
  have read := match_blank (p := {}) whole fractionPattern []
  rw [match_fraction, List.append_nil] at read
  rw [firstMatch?, momentPatterns, List.findSome?_append, letters, Option.none_or, timePatterns,
    List.map_cons, List.findSome?_cons, read]
  rfl

theorem firstMatch?_shortMoment {m : Moment} (short : m.date.HasShortYear) :
    firstMatch? momentPatterns m.sqlText.toList = none := by
  rw [firstMatch?, momentPatterns, List.findSome?_eq_none_iff]
  intro fields member
  rw [List.mem_append, List.mem_map, List.mem_map] at member
  have unread (separator : Char) (time : List Field) :
      matchFields? {} (momentPattern separator time) m.sqlText.toList = none := by
    have more := match_shortMoment (p := {}) short separator time []
    rwa [List.append_nil] at more
  rcases member with ⟨time, _, rfl⟩ | ⟨time, _, rfl⟩
  · exact unread 'T' time
  · exact unread ' ' time

/-- The text of a moment has no offset, so no pattern with one matches it. -/
theorem firstMatch?_zoned (m : Moment) : firstMatch? zonedPatterns m.sqlText.toList = none := by
  by_cases short : m.date.HasShortYear
  · simp [firstMatch?, zonedPatterns, match_shortMoment short]
  · have fraction (fields : List Field) :
        matchFields? {} (momentPattern ' ' fractionPattern ++ .offsetHour :: fields)
          m.sqlText.toList = none := by
      rw [match_blank short, match_fraction]
      rfl
    have second (fields : List Field) :
        matchFields? {} (momentPattern ' ' secondPattern ++ .offsetHour :: fields)
          m.sqlText.toList = none := by
      rw [match_blank short, matchFields?_append, match_second]
      rfl
    simp [firstMatch?, zonedPatterns, match_letter, fraction, second]

theorem Parts.date?_onDay (p : Parts) (d : Date) : (p.onDay d).date? = some d :=
  dif_pos d.exists_day

theorem Parts.time?_atTime (p : Parts) (t : TimeOfDay) : (p.atTime t).time? = some t :=
  dif_pos t.on_clock

theorem Parts.moment?_atTime (p : Parts) (m : Moment) :
    ((p.onDay m.date).atTime m.time).moment? = some m := by
  have date : ((p.onDay m.date).atTime m.time).date? = some m.date := p.date?_onDay m.date
  rw [moment?, date, time?_atTime]
  rfl

end Calendar

/-! ### Reading what literals hand over -/

namespace Native

open Calendar

variable {α : Type} {t : Native} {patterns : List (List Field)} {build : Parts → Option α}
  {s : String}

theorem parse_ok {x : t.Carrier} (plain : ∀ u, t ≠ .optional u) (read : extract t s = .ok (x, "")) :
    parse t s = .ok x := by
  rw [parse.eq_2 t s plain, read]
  rfl

theorem parse_error {fault : ConversionFault} (plain : ∀ u, t ≠ .optional u)
    (unread : extract t s = .error fault) : parse t s = .error fault := by
  rw [parse.eq_2 t s plain, unread]

/-- A whole text is read only by taking all of it. -/
theorem extract_of_parse {x : t.Carrier} (plain : ∀ u, t ≠ .optional u) (read : parse t s = .ok x) :
    extract t s = .ok (x, "") := by
  rw [parse.eq_2 t s plain] at read
  split at read
  · cases read
  · next extracted =>
    split at read
    · next exhausted =>
      cases read
      rwa [String.isEmpty_iff.mp exhausted] at extracted
    · cases read

theorem extractParts_ok {parts : Parts} {x : α}
    (read : firstMatch? patterns s.toList = some (parts, [])) (built : build parts = some x) :
    extractParts t patterns build s = .ok (x, "") := by
  rw [extractParts, read]
  simp only [built, String.ofList_nil]

theorem extractParts_error (unread : firstMatch? patterns s.toList = none) :
    extractParts t patterns build s = .error (.noMoment s t) := by
  rw [extractParts, unread]

theorem parse_time (t : TimeOfDay) : parse time t.sqlText = .ok t := by
  have read : extractTime t.sqlText = .ok (t, "") := by
    rw [extractTime]
    exact extractParts_ok (firstMatch?_time t) (Parts.time?_atTime {} t)
  exact parse_ok (by simp) read

theorem parse_date (d : Date) : parse date d.sqlText =
    if d.HasShortYear then .error (.noMoment d.sqlText date) else .ok d := by
  split
  · next short =>
    have unread : extractDate d.sqlText = .error (.noMoment d.sqlText date) := by
      rw [extractDate]
      exact extractParts_error (firstMatch?_shortDate short)
    exact parse_error (by simp) unread
  · next whole =>
    have read : extractDate d.sqlText = .ok (d, "") := by
      rw [extractDate]
      exact extractParts_ok (firstMatch?_date whole) (Parts.date?_onDay {} d)
    exact parse_ok (by simp) read

theorem extractMoment_short {m : Moment} (short : m.date.HasShortYear) :
    extractMoment m.sqlText = .error (.noMoment m.sqlText moment) := by
  rw [extractMoment]
  exact extractParts_error (firstMatch?_shortMoment short)

theorem extractMoment_whole {m : Moment} (whole : ¬ m.date.HasShortYear) :
    extractMoment m.sqlText = .ok (m, "") := by
  rw [extractMoment]
  exact extractParts_ok (firstMatch?_moment whole) (Parts.moment?_atTime {} m)

theorem parse_moment (m : Moment) : parse moment m.sqlText =
    if m.date.HasShortYear then .error (.noMoment m.sqlText moment) else .ok m := by
  split
  · next short => exact parse_error (t := moment) (by simp) (extractMoment_short short)
  · next whole => exact parse_ok (t := moment) (by simp) (extractMoment_whole whole)

/-- Without an offset in its text a moment is read as it is at UTC. -/
theorem parse_zoned (m : Moment) : parse zoned m.sqlText =
    if m.date.HasShortYear then .error (.noMoment m.sqlText moment)
    else .ok (ZonedMoment.utc m) := by
  have without : extractParts zoned zonedPatterns Parts.zoned? m.sqlText =
      .error (.noMoment m.sqlText zoned) := extractParts_error (firstMatch?_zoned m)
  split
  · next short =>
    have unread : extractZoned m.sqlText = .error (.noMoment m.sqlText moment) := by
      rw [extractZoned, without, extractMoment_short short]
      rfl
    exact parse_error (t := zoned) (by simp) unread
  · next whole =>
    have read : extractZoned m.sqlText = .ok (ZonedMoment.utc m, "") := by
      rw [extractZoned, without, extractMoment_whole whole]
      rfl
    exact parse_ok (t := zoned) (by simp) read

/-- What the type makes of the text, on its own and as a cell whose type is not known. -/
def ReadsAs (t : Native) (s : String) (result : Except ConversionFault t.Carrier) : Prop :=
  parse t s = result ∧ t.ofValue (.unknown (some s)) = result

/-- The value has a literal, and this is what the type makes of the text in it. -/
def ReadsBack (t : Native) (f : Flavor) (v : Value) (result : Except ConversionFault t.Carrier) :
    Prop :=
  ∃ text, f.literal v = .ok text ∧ t.ReadsAs (f.payload text) result

/-- Most types take a cell without the blanks around it. -/
theorem readsAs_of_trim {result : Except ConversionFault t.Carrier}
    (cell : ∀ s, t.ofValue (.unknown (some s)) = parse t (Text.trim s))
    (parsed : parse t s = result) (trimmed : Text.trim s = s) : t.ReadsAs s result :=
  ⟨parsed, by rw [cell, trimmed, parsed]⟩

theorem trim_dateText (d : Date) : Text.trim d.sqlText = d.sqlText :=
  trim_of_bare d.bare_sqlText

theorem trim_timeText (t : TimeOfDay) : Text.trim t.sqlText = t.sqlText := by
  have written : t.sqlText.toList = (padded 2 t.hour).toList ++
      ((":" ++ padded 2 t.minute ++ ":" ++ padded 2 t.second ++ ".").toList ++
        (fractionText t.nanosecond).toList) := by
    simp [TimeOfDay.sqlText]
  exact trim_of_bare_ends written (bare_padded _ _) (bare_fractionText _) (padded_ne_nil _ _)
    (fractionText_ne_nil _)

theorem trim_momentText (m : Moment) : Text.trim m.sqlText = m.sqlText := by
  have written : m.sqlText.toList = m.date.sqlText.toList ++
      ((" " ++ padded 2 m.time.hour ++ ":" ++ padded 2 m.time.minute ++ ":" ++
        padded 2 m.time.second ++ ".").toList ++ (fractionText m.time.nanosecond).toList) := by
    simp [Moment.sqlText, TimeOfDay.sqlText]
  have begun : m.date.sqlText.toList ≠ [] := by
    simp [Date.sqlText]
  exact trim_of_bare_ends written m.date.bare_sqlText (bare_fractionText _) begun
    (fractionText_ne_nil _)

end Native

/-- Literals of days and moments read back in every flavor, and so does the literal of a moment
with an offset, as the moment of the calendar at the same instant; but a year between -999 and -1 is
written with three digits behind its sign, and what is written so is refused by its own reader. -/
theorem Flavor.days_read_back (f : Flavor) :
    (∀ d : Date, Native.date.ReadsBack f (.date (some d))
      (if d.HasShortYear then .error (.noMoment d.sqlText .date) else .ok d)) ∧
    (∀ m : Moment, Native.moment.ReadsBack f (.timestamp (some m))
      (if m.date.HasShortYear then .error (.noMoment m.sqlText .moment) else .ok m)) ∧
    ∀ (z : ZonedMoment) (m : Moment), (ZonedMoment.utc m).sameInstant z = true →
      Native.zoned.ReadsBack f (.zoned (some z))
        (if m.date.HasShortYear then .error (.noMoment m.sqlText .moment)
          else .ok (ZonedMoment.utc m)) := by
  refine ⟨fun d => ?_, fun m => ?_, fun z m same => ?_⟩
  · refine ⟨_, rfl, ?_⟩
    rw [payload_quotable _ (quotable_of_bare d.bare_sqlText)]
    exact Native.readsAs_of_trim (fun _ => rfl) (Native.parse_date d) (Native.trim_dateText d)
  · refine ⟨_, rfl, ?_⟩
    rw [payload_quotable _ m.quotable_sqlText]
    exact Native.readsAs_of_trim (fun _ => rfl) (Native.parse_moment m) (Native.trim_momentText m)
  · have shown := zoned_ok.mpr ⟨m, ZonedMoment.atUtc?_eq same, rfl⟩
    refine ⟨_, by rw [literal, shown], ?_⟩
    rw [payload_quotable _ m.quotable_sqlText]
    exact Native.readsAs_of_trim (fun _ => rfl) (Native.parse_zoned m) (Native.trim_momentText m)

/-- Four digits stand behind the sign, and the offset is no whole number of minutes. -/
theorem Flavor.earlyMoment_reads_back :
    Native.zoned.ReadsBack postgres (.zoned (some
        ⟨⟨⟨-1000, 3, 15, by decide⟩, ⟨0, 49, 59, 10, by decide⟩⟩, 2996⟩))
      (.ok (.utc ⟨⟨-1000, 3, 15, by decide⟩, ⟨0, 0, 3, 10, by decide⟩⟩)) :=
  (days_read_back postgres).2.2 _ ⟨⟨-1000, 3, 15, by decide⟩, ⟨0, 0, 3, 10, by decide⟩⟩ (by decide)

/-- The ides of March of the year -44 are written with three digits, and refused. -/
theorem Flavor.idesOfMarch_refused :
    postgres.literal (.date (some ⟨-44, 3, 15, by decide⟩)) = .ok "'-044-03-15'" ∧
      ¬ Native.date.ReadsAs (postgres.payload "'-044-03-15'") (.ok ⟨-44, 3, 15, by decide⟩) := by
  refine ⟨by rfl, fun reads => ?_⟩
  have refused : Native.parse .date (postgres.payload "'-044-03-15'") =
      .error (.noMoment "-044-03-15" .date) := by rfl
  rw [Native.ReadsAs, refused] at reads
  cases reads.1

end PreparedSql
