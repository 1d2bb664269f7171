import PreparedSql.Proofs.ActionRuns
import PreparedSql.Proofs.CountedCuts
import PreparedSql.Proofs.WholeTexts

/-! Reading answers or fails, with two exceptions. Bytes are read from a text by looking at its first
two bytes, and when the second of them lies inside a character the program stops. And a moment with an
offset is read as a local one at UTC, which stops where the calendar ends before. No other text and no
other value stops a program, whatever characters stand wherever in the text. -/
namespace PreparedSql

namespace Text

/-- The second byte of the text lies inside a character: the first character takes more than two
bytes, or it takes one and the second character more than one. -/
def SecondByteInside : List Char → Prop
  | [] => False
  | c :: cs => 2 < c.utf8Size ∨ c.utf8Size = 1 ∧ ∃ d ∈ cs.head?, 1 < d.utf8Size

/-- A text of two bytes or more cannot be cut behind them when a character lies across. -/
theorem secondByteInside_iff (s : String) : SecondByteInside s.toList ↔
    2 ≤ s.utf8ByteSize ∧ (splitBytes? 2 s.toList).isNone = true := by
  rw [← byteCount_toList]
  generalize s.toList = cs
  cases cs with
  | nil => simp [SecondByteInside, byteCount]
  | cons c cs =>
    have first := c.utf8Size_pos
    rw [SecondByteInside, byteCount, splitBytes?]
    by_cases single : c.utf8Size = 1
    · rw [single, if_pos (by decide), Option.isNone_map]
      cases cs with
      | nil => simp [byteCount]
      | cons d ds =>
        have second := d.utf8Size_pos
        simp only [List.head?_cons, byteCount, splitBytes?]
        split
        · next fits =>
          obtain narrow : d.utf8Size = 1 := by omega
          simp [narrow, splitBytes?]
        · next wide =>
          exact iff_of_true (.inr ⟨trivial, d, rfl, by omega⟩) ⟨by omega, rfl⟩
    · by_cases double : c.utf8Size = 2
      · simp [double, splitBytes?]
      · rw [if_neg (by omega)]
        exact iff_of_true (.inl (by omega)) ⟨by omega, rfl⟩

end Text

namespace Native

open Text (SecondByteInside)

variable {α β : Type} {t : Native} {s : String} {v : Value}

/-! ### Programs that stop -/

/-- The program answers nothing and reports nothing. -/
def Stops (outcome : Except ConversionFault α) : Prop :=
  ∃ fault, outcome = .error fault ∧ fault.stops = true

theorem not_stops_ok (x : α) : ¬ Stops (.ok x) := by
  rintro ⟨fault, same, -⟩
  cases same

theorem stops_error_iff {fault : ConversionFault} :
    Stops (.error fault : Except ConversionFault α) ↔ fault.stops = true := by
  constructor
  · rintro ⟨_, same, stopped⟩
    cases same
    exact stopped
  · exact fun stopped => ⟨fault, rfl, stopped⟩

theorem not_stops_reported {fault : ConversionFault} (reported : fault.stops = false) :
    ¬ Stops (.error fault : Except ConversionFault α) := by
  rw [stops_error_iff, reported]
  exact Bool.false_ne_true

theorem stops_map_iff (f : α → β) (outcome : Except ConversionFault α) :
    Stops (outcome.map f) ↔ Stops outcome := by
  cases outcome with
  | ok x => exact iff_of_false (not_stops_ok _) (not_stops_ok _)
  | error fault => exact stops_error_iff.trans stops_error_iff.symm

theorem stops_bind_iff {outcome : Except ConversionFault α} {f : α → Except ConversionFault β} :
    Stops (outcome >>= f) ↔ Stops outcome ∨ ∃ x, outcome = .ok x ∧ Stops (f x) := by
  cases outcome with
  | ok x =>
    constructor
    · exact fun stopped => .inr ⟨x, rfl, stopped⟩
    · rintro (first | ⟨y, same, stopped⟩)
      · exact absurd first (not_stops_ok x)
      · cases same
        exact stopped
  | error fault =>
    constructor
    · exact fun stopped => .inl (stops_error_iff.mpr (stops_error_iff.mp stopped))
    · rintro (first | ⟨y, none, -⟩)
      · exact stops_error_iff.mpr (stops_error_iff.mp first)
      · cases none

/-- A program that goes through a list stops at an item when every item before was answered. -/
theorem stops_mapM_iff {f : α → Except ConversionFault β} {items : List α} :
    Stops (items.mapM f) ↔ ∃ before x after, items = before ++ x :: after ∧
      (∀ y ∈ before, ∃ z, f y = .ok z) ∧ Stops (f x) := by
  induction items with
  | nil =>
    refine iff_of_false (not_stops_ok _) ?_
    rintro ⟨before, x, after, split, -⟩
    exact absurd split.symm (List.append_ne_nil_of_right_ne_nil _ (List.cons_ne_nil x after))
  | cons x items ih =>
    have step : Stops ((x :: items).mapM f) ↔
        Stops (f x) ∨ (∃ y, f x = .ok y) ∧ Stops (items.mapM f) := by
      rw [List.mapM_cons, stops_bind_iff]
      refine or_congr_right ⟨?_, ?_⟩
      · rintro ⟨y, answered, stopped⟩
        rcases stops_bind_iff.mp stopped with rest | ⟨ys, -, none⟩
        · exact ⟨⟨y, answered⟩, rest⟩
        · exact absurd none (not_stops_ok _)
      · rintro ⟨⟨y, answered⟩, rest⟩
        exact ⟨y, answered, stops_bind_iff.mpr (.inl rest)⟩
    rw [step, ih]
    constructor
    · rintro (first | ⟨answered, before, x', after, rfl, earlier, stopped⟩)
      · exact ⟨[], x, items, rfl, nofun, first⟩
      · exact ⟨x :: before, x', after, rfl, List.forall_mem_cons.mpr ⟨answered, earlier⟩, stopped⟩
    · rintro ⟨before, x', after, split, earlier, stopped⟩
      cases before with
      | nil =>
        obtain ⟨rfl, -⟩ := List.cons.inj split
        exact .inl stopped
      | cons y before =>
        obtain ⟨rfl, rfl⟩ := List.cons.inj split
        obtain ⟨answered, earlier⟩ := List.forall_mem_cons.mp earlier
        exact .inr ⟨answered, before, x', after, rfl, earlier, stopped⟩

/-! ### Readers of texts -/

theorem not_stops_extractParts (t : Native) (patterns : List (List Calendar.Field))
    (build : Calendar.Parts → Option α) (s : String) : ¬ Stops (extractParts t patterns build s) := by
  unfold extractParts
  split
  · exact not_stops_reported rfl
  · split
    · exact not_stops_reported rfl
    · exact not_stops_ok _

theorem not_stops_extractZoned (s : String) : ¬ Stops (extractZoned s) := by
  unfold extractZoned
  split
  · rw [stops_map_iff]
    exact not_stops_extractParts moment Calendar.momentPatterns _ s
  · exact not_stops_extractParts zoned Calendar.zonedPatterns _ s

theorem stops_extractBytes_iff (s : String) : Stops (extractBytes s) ↔ SecondByteInside s.toList := by
  rw [extractBytes_unmark, Text.secondByteInside_iff]
  split
  · next inside => exact iff_of_true (stops_error_iff.mpr rfl) inside
  · next outside =>
    refine iff_of_false ?_ outside
    split
    · exact not_stops_reported rfl
    · exact not_stops_ok _

/-- Every other reader answers or reports. -/
theorem not_stops_extract (other : t ≠ bytes) (s : String) : ¬ Stops (extract t s) := by
  cases t with
  | bytes => exact absurd rfl other
  | int k =>
    show ¬ Stops (extractInt k s)
    unfold extractInt
    dsimp only
    split
    · exact not_stops_reported rfl
    · split
      · exact not_stops_reported rfl
      · exact not_stops_ok _
  | single | double =>
    show ¬ Stops (extractBinary s)
    unfold extractBinary
    split
    · exact not_stops_reported rfl
    · exact not_stops_ok _
  | boolean =>
    show ¬ Stops (extractBoolean s)
    unfold extractBoolean
    dsimp only
    split
    · exact not_stops_reported rfl
    · exact not_stops_ok _
  | decimal =>
    show ¬ Stops (extractDecimal s)
    rw [extractDecimal_unsign]
    split
    · exact not_stops_reported rfl
    · exact not_stops_ok _
  | date => exact not_stops_extractParts date Calendar.datePatterns _ s
  | time => exact not_stops_extractParts time Calendar.timePatterns _ s
  | moment => exact not_stops_extractParts moment Calendar.momentPatterns _ s
  | zoned => exact not_stops_extractZoned s
  | uuid =>
    show ¬ Stops (extractUuid s)
    unfold extractUuid
    split
    · exact not_stops_reported rfl
    · split
      · exact not_stops_reported rfl
      · exact not_stops_ok _
  | text => exact not_stops_ok _
  | borrowedText | optional | sequence => exact not_stops_reported rfl

/-- Taking from the front of a text stops where bytes are read and the second byte lies inside a
character. -/
theorem stops_extract_iff (t : Native) (s : String) :
    Stops (extract t s) ↔ t = bytes ∧ SecondByteInside s.toList := by
  by_cases read : t = bytes
  · subst read
    exact (stops_extractBytes_iff s).trans (and_iff_right rfl).symm
  · exact iff_of_false (not_stops_extract read s) fun both => read both.1

/-- Whether a text is read as bytes, which may be missing. -/
def readsBytes : Native → Bool
  | bytes => true
  | optional t => readsBytes t
  | _ => false

theorem readsBytes_iff (plain : t.isOptional = false) : t.readsBytes = true ↔ t = bytes := by
  cases t with
  | optional t => cases plain
  | bytes => exact iff_of_true rfl rfl
  | _ => exact iff_of_false nofun nofun

/-- A text is read as a whole by its front, which has to leave nothing. -/
theorem parse_plain (plain : t.isOptional = false) (s : String) : parse t s =
    extract t s >>= fun (x, rest) => if rest.isEmpty then .ok x else .error (.leftover s t rest) := by
  rw [parse.eq_2 t s (ne_optional plain)]
  cases extract t s <;> rfl

/-- Reading a whole text stops where taking from its front does, for what may be missing as for what
may not. -/
theorem stops_parse_iff (t : Native) (s : String) :
    Stops (parse t s) ↔ t.readsBytes = true ∧ SecondByteInside s.toList := by
  induction t with
  | optional t ih => exact (stops_map_iff _ _).trans ih
  | _ =>
    rw [parse_plain rfl, stops_bind_iff, stops_extract_iff, readsBytes_iff rfl]
    refine or_iff_left ?_
    rintro ⟨⟨x, rest⟩, -, stopped⟩
    dsimp only at stopped
    split at stopped
    · exact not_stops_ok _ stopped
    · exact not_stops_reported rfl stopped

theorem not_stops_parse (other : t.readsBytes = false) (s : String) : ¬ Stops (parse t s) := by
  rw [stops_parse_iff, other]
  exact fun both => Bool.false_ne_true both.1

/-! ### Values -/

/-- The value stops the program that reads it. -/
inductive Halts : Native → Value → Prop where
  /-- Text from the wire that is read as bytes, with a character across its second byte. -/
  | bytes {s : String} (inside : SecondByteInside s.toList) : Halts .bytes (.unknown (some s))
  /-- A moment that is outside the calendar at UTC. -/
  | moment {z : ZonedMoment} (outside : z.atUtc? = none) : Halts .moment (.zoned (some z))
  | optional {t : Native} {v : Value} (there : v.isNull = false) (halts : Halts t v) :
      Halts (.optional t) v
  /-- The first item that is not answered stops the program. -/
  | sequence {t : Native} {before after : List Value} {v element : Value}
      (answered : ∀ w ∈ before, ∃ x, ofValue t w = .ok x) (halts : Halts t v) :
      Halts (.sequence t) (.list (some (before ++ v :: after)) element)

theorem not_stops_intOfValue (k : IntKind) (v : Value) : ¬ Stops (intOfValue k v) := by
  unfold intOfValue
  rw [stops_bind_iff]
  rintro (number | ⟨w, -, stopped⟩)
  · unfold whole? at number
    split at number
    · exact not_stops_ok _ number
    · split at number
      · exact not_stops_ok _ number
      · exact not_stops_reported rfl number
    · exact not_stops_ok _ number
    · exact not_stops_ok _ number
    · exact not_stops_reported rfl number
  · split at stopped
    · exact not_stops_parse rfl _ stopped
    · split at stopped
      · exact not_stops_ok _ stopped
      · exact not_stops_reported rfl stopped

theorem not_stops_binaryOfValue {f : BinaryFormat} {read : String → Except ConversionFault (Binary f)}
    (reads : ∀ s, ¬ Stops (read s)) (t : Native) (v : Value) : ¬ Stops (binaryOfValue t read v) := by
  unfold binaryOfValue
  split
  · exact not_stops_ok _
  · exact not_stops_ok _
  · exact not_stops_ok _
  · exact not_stops_ok _
  · exact reads _
  · exact reads _
  · exact not_stops_reported rfl

/-- A number that no decimal stands for is reported. -/
theorem not_stops_decimalOfValue (v : Value) : ¬ Stops (decimalOfValue v) := by
  unfold decimalOfValue
  dsimp only
  split
  · exact not_stops_ok _
  · split
    · exact not_stops_ok _
    · exact not_stops_reported rfl
  · split
    · exact not_stops_ok _
    · exact not_stops_reported rfl
  · split
    · exact not_stops_ok _
    · exact not_stops_reported rfl
  · exact not_stops_parse rfl _
  · exact not_stops_parse rfl _
  · exact not_stops_reported rfl

theorem not_stops_booleanOfValue (v : Value) : ¬ Stops (booleanOfValue v) := by
  unfold booleanOfValue
  split
  · exact not_stops_ok _
  · exact not_stops_ok _
  · exact not_stops_parse rfl _
  · exact not_stops_reported rfl

theorem not_stops_textOfValue (v : Value) : ¬ Stops (textOfValue v) := by
  unfold textOfValue
  split
  · exact not_stops_ok _
  · exact not_stops_ok _
  · exact not_stops_reported rfl

theorem not_stops_dateOfValue (v : Value) : ¬ Stops (dateOfValue v) := by
  unfold dateOfValue
  split
  · exact not_stops_ok _
  · exact not_stops_parse rfl _
  · exact not_stops_parse rfl _
  · exact not_stops_reported rfl

theorem not_stops_timeOfValue (v : Value) : ¬ Stops (timeOfValue v) := by
  unfold timeOfValue
  split
  · exact not_stops_ok _
  · exact not_stops_parse rfl _
  · exact not_stops_parse rfl _
  · exact not_stops_reported rfl

theorem not_stops_zonedOfValue (v : Value) : ¬ Stops (zonedOfValue v) := by
  unfold zonedOfValue
  split
  · exact not_stops_ok _
  · exact not_stops_ok _
  · exact not_stops_parse rfl _
  · exact not_stops_parse rfl _
  · exact not_stops_reported rfl

theorem not_stops_uuidOfValue (v : Value) : ¬ Stops (uuidOfValue v) := by
  unfold uuidOfValue
  split
  · exact not_stops_ok _
  · exact not_stops_parse rfl _
  · exact not_stops_parse rfl _
  · exact not_stops_reported rfl

theorem stops_bytesOfValue_iff (v : Value) : Stops (bytesOfValue v) ↔ Halts bytes v := by
  unfold bytesOfValue
  split
  · exact iff_of_false (not_stops_ok _) nofun
  · rw [stops_parse_iff]
    constructor
    · rintro ⟨-, inside⟩
      exact .bytes inside
    · intro halts
      cases halts with
      | bytes inside => exact ⟨rfl, inside⟩
  · next other =>
    refine iff_of_false (not_stops_reported rfl) fun halts => ?_
    cases halts with
    | bytes inside => exact other _ rfl

theorem stops_momentOfValue_iff (v : Value) : Stops (momentOfValue v) ↔ Halts moment v := by
  unfold momentOfValue
  split
  · exact iff_of_false (not_stops_ok _) nofun
  · exact iff_of_false (not_stops_ok _) nofun
  · split
    · next inside =>
      refine iff_of_false (not_stops_ok _) fun halts => ?_
      cases halts with
      | moment outside => cases inside.symm.trans outside
    · next outside => exact iff_of_true (stops_error_iff.mpr rfl) (.moment outside)
  · exact iff_of_false (not_stops_parse rfl _) nofun
  · exact iff_of_false (not_stops_parse rfl _) nofun
  · next other _ _ =>
    refine iff_of_false (not_stops_reported rfl) fun halts => ?_
    cases halts with
    | moment outside => exact other _ rfl

/-- A value stops the program of the type or one of the programs inside it. -/
theorem stops_ofValue_iff (t : Native) (v : Value) : Stops (ofValue t v) ↔ Halts t v := by
  induction t generalizing v with
  | bytes => exact stops_bytesOfValue_iff v
  | moment => exact stops_momentOfValue_iff v
  | optional t ih =>
    show Stops (if v.isNull then .ok none else (ofValue t v).map some) ↔ _
    split
    · next missing =>
      refine iff_of_false (not_stops_ok _) fun halts => ?_
      cases halts with
      | optional there _ => exact Bool.false_ne_true (there.symm.trans missing)
    · next there =>
      rw [stops_map_iff, ih]
      constructor
      · exact .optional (Bool.not_eq_true _ ▸ there)
      · intro halts
        cases halts with
        | optional _ inside => exact inside
  | sequence t ih =>
    by_cases list : ∃ items element, v = .list (some items) element
    · obtain ⟨items, element, rfl⟩ := list
      rw [ofValue, stops_mapM_iff]
      constructor
      · rintro ⟨before, w, after, rfl, answered, stopped⟩
        exact .sequence answered ((ih w).mp stopped)
      · intro halts
        cases halts with
        | sequence answered inside => exact ⟨_, _, _, rfl, answered, (ih _).mpr inside⟩
    · have refused : ofValue (sequence t) v = .error (.inconvertible v (sequence t)) := by
        rw [ofValue]
        exact fun items element same => list ⟨items, element, same⟩
      rw [refused]
      refine iff_of_false (not_stops_reported rfl) fun halts => ?_
      cases halts with
      | sequence answered inside => exact list ⟨_, _, rfl⟩
  | int k => exact iff_of_false (not_stops_intOfValue k v) nofun
  | single =>
    exact iff_of_false (not_stops_binaryOfValue (fun s => not_stops_parse rfl s) single v) nofun
  | double =>
    exact iff_of_false (not_stops_binaryOfValue (fun s => not_stops_parse rfl s) double v) nofun
  | decimal => exact iff_of_false (not_stops_decimalOfValue v) nofun
  | boolean => exact iff_of_false (not_stops_booleanOfValue v) nofun
  | text => exact iff_of_false (not_stops_textOfValue v) nofun
  | date => exact iff_of_false (not_stops_dateOfValue v) nofun
  | time => exact iff_of_false (not_stops_timeOfValue v) nofun
  | zoned => exact iff_of_false (not_stops_zonedOfValue v) nofun
  | uuid => exact iff_of_false (not_stops_uuidOfValue v) nofun
  | borrowedText => exact iff_of_false (not_stops_reported rfl) nofun

/-- Whatever the text and whatever the value, reading answers or reports, but for the two ways to stop.
Programs that count bytes cut the text between two characters everywhere else, and so do the messages
they report. -/
theorem reading_stops_iff (t : Native) :
    (∀ s, t.takeCounted.run s = outcome s (extract t s)) ∧
    (∀ s, Stops (extract t s) ↔ t = bytes ∧ SecondByteInside s.toList) ∧
    (∀ s, Stops (parse t s) ↔ t.readsBytes = true ∧ SecondByteInside s.toList) ∧
    (∀ v, Stops (ofValue t v) ↔ t.Halts v) ∧
    ∀ s, Text.truncatedAtCut? s = some (Text.truncated s) := by
  refine ⟨fun s => ?_, stops_extract_iff t, stops_parse_iff t, stops_ofValue_iff t,
    Text.truncatedAtCut?_eq⟩
  rw [takeCounted_eq, take_run]

/-- A digit and a letter of two bytes stop the reader of bytes. The last half hour of the calendar, at
an offset behind UTC, stops the reader of local moments. -/
theorem stopping_reads :
    bytes.takeCounted.run "0é" = .error .splitCharacter "0é" ∧
      Stops (extract bytes "0é") ∧ Stops (parse bytes "0é") ∧
      Stops (ofValue moment
        (.zoned (some ⟨⟨⟨9999, 12, 31, by decide⟩, ⟨23, 30, 0, 0, by decide⟩⟩, -3600⟩))) :=
  ⟨rfl, ⟨.splitCharacter, rfl, rfl⟩, ⟨.splitCharacter, rfl, rfl⟩, ⟨.outsideCalendar, rfl, rfl⟩⟩

end Native

end PreparedSql
