import PreparedSql.Proofs.PatternTexts

/-! Days and times are read exactly from the texts of their patterns. The patterns of a type are
tried in turn and the first one that takes a front of the text decides, also when it leaves a rest
and when the calendar does not have what it read. That costs no text its reading, because the
patterns stand in such an order that none takes a front of a text of a later one: where two of them
part, the earlier asks for more, or for another mark. So a text is read when it spells one of the
patterns and its parts exist, and as what those parts say. -/
namespace PreparedSql

/-! ### Parts that exist -/

/-- The day that the parts say. -/
def Date.HasParts (d : Date) (p : Calendar.Parts) : Prop :=
  d.year = p.year ∧ d.month = p.month ∧ d.day = p.day

/-- The time of day that the parts say. -/
def TimeOfDay.HasParts (t : TimeOfDay) (p : Calendar.Parts) : Prop :=
  t.hour = p.hour ∧ t.minute = p.minute ∧ t.second = p.second ∧ t.nanosecond = p.nanosecond

def Moment.HasParts (m : Moment) (p : Calendar.Parts) : Prop :=
  m.date.HasParts p ∧ m.time.HasParts p

/-- The local moment that the parts say, and the offset with the sign for both of its parts. -/
def ZonedMoment.HasParts (z : ZonedMoment) (p : Calendar.Parts) : Prop :=
  z.moment.HasParts p ∧
    z.offset = (if p.offsetNegative then -1 else 1) * (3600 * p.offsetHour + 60 * p.offsetMinute)

namespace Calendar

variable {p q : Parts} {cs text rest : List Char}

namespace Parts

theorem date?_iff {d : Date} : p.date? = some d ↔ d.HasParts p := by
  obtain ⟨year, month, day, exists_day⟩ := d
  constructor
  · intro built
    rw [date?, Date.of?] at built
    split at built
    · cases built
      exact ⟨rfl, rfl, rfl⟩
    · cases built
  · rintro ⟨rfl, rfl, rfl⟩
    exact dif_pos exists_day

theorem time?_iff {t : TimeOfDay} : p.time? = some t ↔ t.HasParts p := by
  obtain ⟨hour, minute, second, nanosecond, on_clock⟩ := t
  constructor
  · intro built
    rw [time?, TimeOfDay.of?] at built
    split at built
    · cases built
      exact ⟨rfl, rfl, rfl, rfl⟩
    · cases built
  · rintro ⟨rfl, rfl, rfl, rfl⟩
    exact dif_pos on_clock

theorem moment?_iff {m : Moment} : p.moment? = some m ↔ m.HasParts p := by
  rw [Moment.HasParts, ← date?_iff, ← time?_iff]
  simp only [moment?, Option.bind_eq_bind, Option.bind_eq_some_iff, Option.pure_def, Option.some.injEq]
  constructor
  · rintro ⟨d, date, t, time, rfl⟩
    exact ⟨date, time⟩
  · rintro ⟨date, time⟩
    exact ⟨_, date, _, time, rfl⟩

theorem zoned?_iff {z : ZonedMoment} : p.zoned? = some z ↔ z.HasParts p := by
  have signed : p.offset =
      (if p.offsetNegative then -1 else 1) * (3600 * p.offsetHour + 60 * p.offsetMinute) := by
    rw [offset]
    split <;> simp
  rw [ZonedMoment.HasParts, ← moment?_iff, ← signed]
  simp only [zoned?, Option.bind_eq_bind, Option.bind_eq_some_iff, Option.pure_def, Option.some.injEq]
  constructor
  · rintro ⟨m, moment, rfl⟩
    exact ⟨moment, rfl⟩
  · rintro ⟨moment, offset⟩
    exact ⟨_, moment, by rw [← offset]⟩

end Parts

/-! ### The order of patterns -/

/-- The field begins otherwise than every text of the other. -/
def Field.excludes : Field → Field → Bool
  | .mark c, .mark d => c != d
  | .mark c, .offsetHour => c != '+' && c != '-'
  | .offsetHour, .mark c => c != '+' && c != '-'
  | _, _ => false

/-- The pattern goes along with the other, and where they part it asks for more or for something
else. -/
def passesBy : List Field → List Field → Bool
  | [], _ => false
  | _ :: _, [] => true
  | field :: fields, other :: others =>
    if field = other then passesBy fields others else field.excludes other

theorem Field.read?_nil (field : Field) : field.read? p [] = none := by
  cases field <;> rfl

theorem Field.read?_of_excludes {field other : Field} (excluded : field.excludes other = true)
    (spelled : other.Spells p text q) : field.read? p (text ++ rest) = none := by
  cases field with
  | mark c =>
    cases spelled with
    | mark d =>
      have apart : d ≠ c := fun same => by simp [Field.excludes, same] at excluded
      simp [Field.read?, apart]
    | @offsetHour _ _ sign signed digits =>
      have apart : sign ≠ c := by
        rintro rfl
        rcases signed with rfl | rfl <;> simp [Field.excludes] at excluded
      simp [Field.read?, apart]
    | _ => cases excluded
  | offsetHour =>
    cases spelled with
    | mark d =>
      have unsigned : ¬ (d = '+' ∨ d = '-') := by simpa [Field.excludes] using excluded
      simp [Field.read?, unsigned]
    | _ => cases excluded
  | _ => cases excluded

/-- Such a pattern takes no front of a text of the other. -/
theorem matchFields?_of_passesBy {fields others : List Field} (past : passesBy fields others = true)
    (delimited : Delimited others) (spelled : SpellsFields p others text q) :
    matchFields? p fields text = none := by
  induction spelled generalizing fields with
  | nil =>
    cases fields with
    | nil => cases past
    | cons field fields => rw [matchFields?, Field.read?_nil, Option.bind_eq_bind, Option.bind_none]
  | @cons p q r other others text more first behind ih =>
    cases fields with
    | nil => cases past
    | cons field fields =>
      rw [passesBy] at past
      split at past
      · next same =>
        rw [matchFields?, same, Field.read?_of_spells first (ends_of_delimited delimited behind)]
        exact ih past delimited.2
      · rw [matchFields?, Field.read?_of_excludes past first, Option.bind_eq_bind, Option.bind_none]

/-- Patterns of which none takes a front of a text of a later one. -/
structure FinestFirst (patterns : List (List Field)) : Prop where
  past : patterns.Pairwise fun fields others => passesBy fields others = true
  delimited : ∀ fields ∈ patterns, Delimited fields

theorem finestFirst_date : FinestFirst datePatterns := ⟨by decide, by decide⟩

theorem finestFirst_time : FinestFirst timePatterns := ⟨by decide, by decide⟩

/-- Moments with an offset are tried before those without. -/
theorem finestFirst_zoned : FinestFirst (zonedPatterns ++ momentPatterns) :=
  ⟨by decide, by decide⟩

theorem finestFirst_moment : FinestFirst momentPatterns where
  past := (List.pairwise_append.mp finestFirst_zoned.past).2.1
  delimited fields member := finestFirst_zoned.delimited fields (List.mem_append_right _ member)

/-! ### The first pattern that matches -/

/-- The text spells one of the patterns. -/
def SpellsOne (patterns : List (List Field)) (text : List Char) (p : Parts) : Prop :=
  ∃ fields ∈ patterns, SpellsFields {} fields text p

theorem spells_of_firstMatch? {patterns : List (List Field)}
    (read : firstMatch? patterns cs = some (p, rest)) :
    ∃ text, cs = text ++ rest ∧ SpellsOne patterns text p := by
  obtain ⟨fields, member, taken⟩ := List.exists_of_findSome?_eq_some read
  obtain ⟨text, joined, spelled⟩ := spells_of_matchFields? taken
  exact ⟨text, joined, fields, member, spelled⟩

/-- The pattern that a text spells is the first one to match it. -/
theorem firstMatch?_of_spells {patterns : List (List Field)} (finest : FinestFirst patterns)
    (spelled : SpellsOne patterns text p) : firstMatch? patterns text = some (p, []) := by
  obtain ⟨others, member, spelled⟩ := spelled
  have delimited := finest.delimited others member
  have past := finest.past
  clear finest
  induction patterns with
  | nil => cases member
  | cons fields patterns ih =>
    obtain ⟨first, later⟩ := List.pairwise_cons.mp past
    rw [firstMatch?, List.findSome?_cons]
    rcases List.mem_cons.mp member with rfl | behind
    · rw [matchFields?_of_spells delimited spelled]
    · rw [matchFields?_of_passesBy (first others behind) delimited spelled]
      exact ih behind later

end Calendar

/-! ### Texts -/

/-- A moment with its offset as the text says it or, where the text leaves the offset out, at UTC. -/
def ZonedMoment.SpelledBy (z : ZonedMoment) (text : List Char) : Prop :=
  (∃ p, Calendar.SpellsOne Calendar.zonedPatterns text p ∧ z.HasParts p) ∨
    ∃ m : Moment, (∃ p, Calendar.SpellsOne Calendar.momentPatterns text p ∧ m.HasParts p) ∧
      z = ZonedMoment.utc m

namespace Native

open Calendar

variable {α : Type} {t : Native} {patterns : List (List Field)} {build : Parts → Option α}
  {s rest : String} {x : α}

/-- What is taken from the front of a text spells a pattern, and its parts exist. -/
theorem spells_of_extractParts (read : extractParts t patterns build s = .ok (x, rest)) :
    ∃ text p, s.toList = text ++ rest.toList ∧ SpellsOne patterns text p ∧ build p = some x := by
  rw [extractParts] at read
  cases first : firstMatch? patterns s.toList with
  | none =>
    rw [first] at read
    cases read
  | some taken =>
    obtain ⟨p, more⟩ := taken
    obtain ⟨text, joined, spelled⟩ := spells_of_firstMatch? first
    rw [first] at read
    dsimp only at read
    split at read
    · cases read
    · next built =>
      cases read
      exact ⟨text, p, by rw [joined, String.toList_ofList], spelled, built⟩

theorem extractParts_of_spells {p : Parts} (finest : FinestFirst patterns)
    (spelled : SpellsOne patterns s.toList p) (built : build p = some x) :
    extractParts t patterns build s = .ok (x, "") :=
  extractParts_ok (firstMatch?_of_spells finest spelled) built

/-- Where reading a type is reading by patterns, whole texts of the patterns are what it reads. -/
theorem parse_parts_iff {patterns : List (List Field)} {build : Parts → Option t.Carrier}
    {x : t.Carrier} (plain : ∀ u, t ≠ .optional u) (finest : FinestFirst patterns)
    (extracts : extract t s = extractParts t patterns build s) :
    parse t s = .ok x ↔ ∃ p, SpellsOne patterns s.toList p ∧ build p = some x := by
  constructor
  · intro read
    have whole := extract_of_parse plain read
    rw [extracts] at whole
    obtain ⟨text, p, joined, spelled, built⟩ := spells_of_extractParts whole
    rw [String.toList_empty, List.append_nil] at joined
    exact ⟨p, joined ▸ spelled, built⟩
  · rintro ⟨p, spelled, built⟩
    exact parse_ok plain (extracts.trans (extractParts_of_spells finest spelled built))

/-! ### Moments with an offset -/

/-- A text without an offset begins with none of the patterns that have one. -/
theorem firstMatch?_zoned_of_moment {p : Parts} {text : List Char}
    (spelled : SpellsOne momentPatterns text p) : firstMatch? zonedPatterns text = none := by
  obtain ⟨others, member, spelled⟩ := spelled
  rw [firstMatch?, List.findSome?_eq_none_iff]
  intro fields zoned
  exact matchFields?_of_passesBy
    ((List.pairwise_append.mp finestFirst_zoned.past).2.2 fields zoned others member)
    (finestFirst_moment.delimited others member) spelled

theorem spells_of_extractZoned {z : ZonedMoment} (read : extractZoned s = .ok (z, rest)) :
    ∃ text, s.toList = text ++ rest.toList ∧ z.SpelledBy text := by
  rw [extractZoned] at read
  split at read
  · cases unzoned : extractMoment s with
    | error fault =>
      rw [unzoned] at read
      cases read
    | ok taken =>
      obtain ⟨m, more⟩ := taken
      rw [unzoned] at read
      cases read
      obtain ⟨text, p, joined, spelled, built⟩ := spells_of_extractParts unzoned
      exact ⟨text, joined, .inr ⟨m, ⟨p, spelled, Parts.moment?_iff.mp built⟩, rfl⟩⟩
  · obtain ⟨text, p, joined, spelled, built⟩ := spells_of_extractParts read
    exact ⟨text, joined, .inl ⟨p, spelled, Parts.zoned?_iff.mp built⟩⟩

theorem extractZoned_of_spells {z : ZonedMoment} (spelled : z.SpelledBy s.toList) :
    extractZoned s = .ok (z, "") := by
  rw [extractZoned]
  rcases spelled with ⟨p, spelled, exist⟩ | ⟨m, ⟨p, spelled, exist⟩, rfl⟩
  · have finest : FinestFirst zonedPatterns :=
      { past := (List.pairwise_append.mp finestFirst_zoned.past).1
        delimited := fun fields member =>
          finestFirst_zoned.delimited fields (List.mem_append_left _ member) }
    rw [extractParts_of_spells finest spelled (Parts.zoned?_iff.mpr exist)]
  · have unzoned : extractMoment s = .ok (m, "") :=
      extractParts_of_spells finestFirst_moment spelled (Parts.moment?_iff.mpr exist)
    rw [extractParts_error (firstMatch?_zoned_of_moment spelled), unzoned]
    rfl

theorem parse_zoned_iff {z : ZonedMoment} : parse zoned s = .ok z ↔ z.SpelledBy s.toList := by
  constructor
  · intro read
    have whole : extractZoned s = .ok (z, "") := extract_of_parse (t := zoned) (by simp) read
    obtain ⟨text, joined, spelled⟩ := spells_of_extractZoned whole
    rw [String.toList_empty, List.append_nil] at joined
    exact joined ▸ spelled
  · intro spelled
    exact parse_ok (t := zoned) (by simp) (extractZoned_of_spells spelled)

/-- A text is read as a day, a time or a moment when it spells one of the type's patterns as a whole
and its parts exist, and as what the parts say: the pattern that is tried first takes nothing from
the others. -/
theorem texts_read_by_patterns (s : String) :
    (∀ d, parse date s = .ok d ↔ ∃ p, SpellsOne datePatterns s.toList p ∧ Date.HasParts d p) ∧
    (∀ t, parse time s = .ok t ↔ ∃ p, SpellsOne timePatterns s.toList p ∧ TimeOfDay.HasParts t p) ∧
    (∀ m, parse moment s = .ok m ↔ ∃ p, SpellsOne momentPatterns s.toList p ∧ Moment.HasParts m p) ∧
    (∀ z, parse zoned s = .ok z ↔ ZonedMoment.SpelledBy z s.toList) := by
  refine ⟨fun d => ?_, fun t => ?_, fun m => ?_, fun z => parse_zoned_iff⟩
  · simp only [← Parts.date?_iff]
    exact parse_parts_iff (by simp) finestFirst_date rfl
  · simp only [← Parts.time?_iff]
    exact parse_parts_iff (by simp) finestFirst_time rfl
  · simp only [← Parts.moment?_iff]
    exact parse_parts_iff (by simp) finestFirst_moment rfl

end Native

end PreparedSql
