import PreparedSql.Proofs.ExactIntegers

/-! What the patterns of days and times mean. Every field has texts that spell it, each of which sets
a part; a pattern is spelled by texts of its fields, one behind the other. The reader takes fields
off the front of a text. What it takes spells the pattern, and a text that spells the pattern is
taken as a whole, for only a fraction can be taken further than it was meant, and behind a fraction
stands the sign of an offset or nothing. -/
namespace PreparedSql.Calendar

open Text (Digits SpellsNat digitsValue)

variable {p q : Parts} {cs text rest : List Char} {n : ℕ}

/-! ### Texts of fields -/

/-- Two digits for a number between the limits. -/
structure TwoDigits (least greatest : ℕ) (text : List Char) (n : ℕ) : Prop where
  spelled : SpellsNat text n
  two : text.length = 2
  range : least ≤ n ∧ n ≤ greatest

/-- The texts of a field, and what they make of the parts read so far. A year has four digits behind
a sign, which may be missing; a fraction has any number of digits, of which nine count; an offset
begins with its sign. -/
inductive Field.Spells (p : Parts) : Field → List Char → Parts → Prop where
  | mark (c : Char) : Spells p (.mark c) [c] p
  | year {text : List Char} {n : ℕ} (spelled : SpellsNat text n) (four : text.length = 4) :
      Spells p .year text { p with year := n }
  | yearAfter {text : List Char} {n : ℕ} (spelled : SpellsNat text n) (four : text.length = 4) :
      Spells p .year ('+' :: text) { p with year := n }
  | yearBefore {text : List Char} {n : ℕ} (spelled : SpellsNat text n) (four : text.length = 4) :
      Spells p .year ('-' :: text) { p with year := -(n : ℤ) }
  | month {text : List Char} {n : ℕ} (digits : TwoDigits 1 12 text n) :
      Spells p .month text { p with month := n }
  | day {text : List Char} {n : ℕ} (digits : TwoDigits 1 31 text n) :
      Spells p .day text { p with day := n }
  | hour {text : List Char} {n : ℕ} (digits : TwoDigits 0 23 text n) :
      Spells p .hour text { p with hour := n }
  | minute {text : List Char} {n : ℕ} (digits : TwoDigits 0 59 text n) :
      Spells p .minute text { p with minute := n }
  | second {text : List Char} {n : ℕ} (digits : TwoDigits 0 60 text n) :
      Spells p .second text { p with second := n }
  | subsecond {text : List Char} {n : ℕ} (digits : Digits text) (shown : SpellsNat (text.take 9) n) :
      Spells p .subsecond text { p with nanosecond := n * 10 ^ (9 - (text.take 9).length) }
  | offsetHour {text : List Char} {n : ℕ} {sign : Char} (signed : sign = '+' ∨ sign = '-')
      (digits : TwoDigits 0 25 text n) :
      Spells p .offsetHour (sign :: text) { p with offsetNegative := sign = '-', offsetHour := n }
  | offsetMinute {text : List Char} {n : ℕ} (digits : TwoDigits 0 59 text n) :
      Spells p .offsetMinute text { p with offsetMinute := n }

/-- The texts of a pattern: a text of each field, one behind the other. -/
inductive SpellsFields : Parts → List Field → List Char → Parts → Prop where
  | nil {p : Parts} : SpellsFields p [] [] p
  | cons {p q r : Parts} {field : Field} {fields : List Field} {text more : List Char}
      (first : field.Spells p text q) (others : SpellsFields q fields more r) :
      SpellsFields p (field :: fields) (text ++ more) r

/-! ### Digits -/

theorem spells_of_digits? {count : ℕ} (positive : 0 < count)
    (read : digits? count cs = some (n, rest)) :
    ∃ text, cs = text ++ rest ∧ SpellsNat text n ∧ text.length = count := by
  rw [digits?] at read
  split at read
  · next known =>
    obtain ⟨counted, all⟩ := known
    cases read
    refine ⟨cs.take count, (List.take_append_drop count cs).symm, ?_, counted⟩
    refine Text.spellsNat_iff.mpr ⟨List.all_eq_true.mp all, ?_, rfl⟩
    intro nothing
    rw [nothing, List.length_nil] at counted
    omega
  · cases read

theorem digits?_of_spells {count : ℕ} (spelled : SpellsNat text n) (counted : text.length = count) :
    digits? count (text ++ rest) = some (n, rest) := by
  obtain ⟨digits, -, rfl⟩ := Text.spellsNat_iff.mp spelled
  exact digits?_append digits counted

theorem spells_of_twoDigits? {least greatest : ℕ}
    (read : twoDigits? least greatest cs = some (n, rest)) :
    ∃ text, cs = text ++ rest ∧ TwoDigits least greatest text n := by
  rw [twoDigits?, Option.bind_eq_bind, Option.bind_eq_some_iff] at read
  obtain ⟨⟨m, more⟩, digits, checked⟩ := read
  dsimp only at checked
  split at checked
  · next range =>
    cases checked
    obtain ⟨text, joined, spelled, two⟩ := spells_of_digits? (by decide) digits
    exact ⟨text, joined, spelled, two, range⟩
  · cases checked

theorem twoDigits?_of_spells {least greatest : ℕ} (digits : TwoDigits least greatest text n) :
    twoDigits? least greatest (text ++ rest) = some (n, rest) := by
  rw [twoDigits?, digits?_of_spells digits.spelled digits.two]
  exact if_pos digits.range

/-- The nine digits that count, as nanoseconds. -/
theorem nanoseconds_of_spells (shown : SpellsNat (text.take 9) n) :
    nanoseconds text = n * 10 ^ (9 - (text.take 9).length) := by
  obtain ⟨-, -, rfl⟩ := Text.spellsNat_iff.mp shown
  rfl

theorem ne_nil_of_shown (shown : SpellsNat (text.take 9) n) : text ≠ [] := by
  obtain ⟨-, some, -⟩ := Text.spellsNat_iff.mp shown
  rintro rfl
  exact some rfl

/-! ### Fields -/

theorem Field.read?_unsignedYear (bare : ∀ c ∈ cs.head?, c ≠ '-' ∧ c ≠ '+') :
    Field.read? p cs .year = (digits? 4 cs).map fun (n, rest) => ({ p with year := n }, rest) := by
  cases cs with
  | nil => rfl
  | cons c cs => simp [Field.read?, bare c rfl]

/-- Two digits that are taken make a part of what is read. -/
theorem spells_of_taken {least greatest : ℕ} (make : ℕ → Parts)
    (taken : (twoDigits? least greatest cs).map (fun (n, rest) => (make n, rest)) =
      some (q, rest)) :
    ∃ text n, cs = text ++ rest ∧ TwoDigits least greatest text n ∧ make n = q := by
  obtain ⟨⟨n, more⟩, digits, same⟩ := Option.map_eq_some_iff.mp taken
  cases same
  obtain ⟨text, joined, known⟩ := spells_of_twoDigits? digits
  exact ⟨text, n, joined, known, rfl⟩

/-- The four digits of a year. -/
theorem spells_of_takenYear (make : ℕ → Parts)
    (taken : (digits? 4 cs).map (fun (n, rest) => (make n, rest)) = some (q, rest)) :
    ∃ text n, cs = text ++ rest ∧ SpellsNat text n ∧ text.length = 4 ∧ make n = q := by
  obtain ⟨⟨n, more⟩, digits, same⟩ := Option.map_eq_some_iff.mp taken
  cases same
  obtain ⟨text, joined, spelled, counted⟩ := spells_of_digits? (by decide) digits
  exact ⟨text, n, joined, spelled, counted, rfl⟩

/-- A year may have a sign. -/
theorem Field.spells_of_read?_year (read : Field.read? p cs .year = some (q, rest)) :
    ∃ text, cs = text ++ rest ∧ Field.year.Spells p text q := by
  have unsigned (bare : ∀ c ∈ cs.head?, c ≠ '-' ∧ c ≠ '+') :
      ∃ text, cs = text ++ rest ∧ Field.year.Spells p text q := by
    rw [read?_unsignedYear bare] at read
    obtain ⟨text, n, joined, spelled, counted, rfl⟩ :=
      spells_of_takenYear (fun n => { p with year := n }) read
    exact ⟨text, joined, .year spelled counted⟩
  cases cs with
  | nil => exact unsigned (by simp)
  | cons c cs =>
    by_cases minus : c = '-'
    · subst minus
      obtain ⟨text, n, rfl, spelled, counted, rfl⟩ :=
        spells_of_takenYear (fun n => { p with year := -(n : ℤ) }) read
      exact ⟨'-' :: text, rfl, .yearBefore spelled counted⟩
    · by_cases plus : c = '+'
      · subst plus
        obtain ⟨text, n, rfl, spelled, counted, rfl⟩ :=
          spells_of_takenYear (fun n => { p with year := n }) read
        exact ⟨'+' :: text, rfl, .yearAfter spelled counted⟩
      · exact unsigned (by simp [minus, plus])

/-- What is taken for a field spells it. -/
theorem Field.spells_of_read? {field : Field} (read : field.read? p cs = some (q, rest)) :
    ∃ text, cs = text ++ rest ∧ field.Spells p text q := by
  cases field with
  | mark c =>
    simp only [Field.read?] at read
    split at read
    · next first =>
      cases read
      obtain ⟨others, rfl⟩ := List.head?_eq_some_iff.mp first
      exact ⟨[c], rfl, .mark c⟩
    · cases read
  | year => exact spells_of_read?_year read
  | month =>
    obtain ⟨text, n, joined, digits, rfl⟩ := spells_of_taken (fun n => { p with month := n }) read
    exact ⟨text, joined, .month digits⟩
  | day =>
    obtain ⟨text, n, joined, digits, rfl⟩ := spells_of_taken (fun n => { p with day := n }) read
    exact ⟨text, joined, .day digits⟩
  | hour =>
    obtain ⟨text, n, joined, digits, rfl⟩ := spells_of_taken (fun n => { p with hour := n }) read
    exact ⟨text, joined, .hour digits⟩
  | minute =>
    obtain ⟨text, n, joined, digits, rfl⟩ := spells_of_taken (fun n => { p with minute := n }) read
    exact ⟨text, joined, .minute digits⟩
  | second =>
    obtain ⟨text, n, joined, digits, rfl⟩ := spells_of_taken (fun n => { p with second := n }) read
    exact ⟨text, joined, .second digits⟩
  | subsecond =>
    simp only [Field.read?] at read
    split at read
    · cases read
    · next some =>
      cases read
      have digits := Text.digits_takeWhile cs
      refine ⟨cs.takeWhile Char.isDigit, List.takeWhile_append_dropWhile.symm, ?_⟩
      generalize cs.takeWhile Char.isDigit = run at some digits
      refine .subsecond digits (Text.spellsNat_iff.mpr ⟨?_, ?_, rfl⟩)
      · exact fun c member => digits c (List.mem_of_mem_take member)
      · simpa using some
  | offsetHour =>
    cases cs with
    | nil => cases read
    | cons c cs =>
      simp only [Field.read?] at read
      split at read
      · next signed =>
        obtain ⟨text, n, rfl, digits, rfl⟩ :=
          spells_of_taken (fun n => { p with offsetNegative := c = '-', offsetHour := n }) read
        exact ⟨c :: text, rfl, .offsetHour signed digits⟩
      · cases read
  | offsetMinute =>
    obtain ⟨text, n, joined, digits, rfl⟩ :=
      spells_of_taken (fun n => { p with offsetMinute := n }) read
    exact ⟨text, joined, .offsetMinute digits⟩

/-- A text of a field is taken for it, and nothing more, unless a digit follows a fraction. -/
theorem Field.read?_of_spells {field : Field} (spelled : field.Spells p text q)
    (ends : field = .subsecond → ∀ c ∈ rest.head?, c.isDigit = false) :
    field.read? p (text ++ rest) = some (q, rest) := by
  have two {text : List Char} {least greatest n : ℕ} (make : ℕ → Parts)
      (digits : TwoDigits least greatest text n) :
      (twoDigits? least greatest (text ++ rest)).map (fun (n, rest) => (make n, rest)) =
        some (make n, rest) := by
    rw [twoDigits?_of_spells digits]
    rfl
  cases spelled with
  | mark c => simp [Field.read?]
  | year spelled four =>
    have digits := (Text.spellsNat_iff.mp spelled).1
    have bare : ∀ c ∈ (text ++ rest).head?, c ≠ '-' ∧ c ≠ '+' := by
      intro c first
      cases text with
      | nil => cases four
      | cons d text =>
        obtain rfl : d = c := Option.some.inj first
        exact Text.not_sign_of_isDigit (digits d List.mem_cons_self)
    rw [read?_unsignedYear bare, digits?_of_spells spelled four]
    rfl
  | yearAfter spelled four => simp [Field.read?, digits?_of_spells spelled four]
  | yearBefore spelled four => simp [Field.read?, digits?_of_spells spelled four]
  | month digits => exact two (fun n => { p with month := n }) digits
  | day digits => exact two (fun n => { p with day := n }) digits
  | hour digits => exact two (fun n => { p with hour := n }) digits
  | minute digits => exact two (fun n => { p with minute := n }) digits
  | second digits => exact two (fun n => { p with second := n }) digits
  | subsecond digits shown =>
    have some : text.isEmpty = false := List.isEmpty_eq_false_iff.mpr (ne_nil_of_shown shown)
    simp only [Field.read?, Text.takeWhile_run digits (ends rfl),
      Text.dropWhile_run digits (ends rfl), some, nanoseconds_of_spells shown]
    rfl
  | @offsetHour _ _ sign signed digits =>
    simp only [Field.read?, List.cons_append, if_pos signed]
    exact two (fun n => { p with offsetNegative := sign = '-', offsetHour := n }) digits
  | offsetMinute digits => exact two (fun n => { p with offsetMinute := n }) digits

/-! ### Patterns -/

/-- What is taken for a pattern spells it. -/
theorem spells_of_matchFields? {fields : List Field}
    (read : matchFields? p fields cs = some (q, rest)) :
    ∃ text, cs = text ++ rest ∧ SpellsFields p fields text q := by
  induction fields generalizing p cs with
  | nil =>
    cases read
    exact ⟨[], rfl, .nil⟩
  | cons field fields ih =>
    rw [matchFields?, Option.bind_eq_bind, Option.bind_eq_some_iff] at read
    obtain ⟨⟨r, more⟩, first, others⟩ := read
    obtain ⟨text, rfl, spelled⟩ := Field.spells_of_read? first
    obtain ⟨back, rfl, behind⟩ := ih others
    exact ⟨text ++ back, (List.append_assoc ..).symm, .cons spelled behind⟩

/-- Behind a fraction stands an offset or nothing. -/
def Delimited : List Field → Prop
  | [] => True
  | field :: fields =>
    (field = .subsecond → fields = [] ∨ fields.head? = some .offsetHour) ∧ Delimited fields

instance : (fields : List Field) → Decidable (Delimited fields)
  | [] => .isTrue trivial
  | _ :: fields =>
    have : Decidable (Delimited fields) := instDecidableDelimited fields
    inferInstanceAs (Decidable (_ ∧ _))

/-- The rest of such a pattern begins with no digit where that matters. -/
theorem ends_of_delimited {field : Field} {fields : List Field}
    (delimited : Delimited (field :: fields)) (others : SpellsFields p fields text q) :
    field = .subsecond → ∀ c ∈ text.head?, c.isDigit = false := by
  intro fraction
  rcases delimited.1 fraction with rfl | offset
  · cases others
    simp
  · cases others with
    | nil => cases offset
    | cons first others =>
      cases Option.some.inj offset
      cases first with
      | offsetHour signed digits =>
        intro c first
        cases first
        rcases signed with rfl | rfl <;> decide

/-- A text of a pattern is taken for it as a whole. -/
theorem matchFields?_of_spells {fields : List Field} (delimited : Delimited fields)
    (spelled : SpellsFields p fields text q) : matchFields? p fields text = some (q, []) := by
  induction spelled with
  | nil => rfl
  | cons first others ih =>
    rw [matchFields?, Field.read?_of_spells first (ends_of_delimited delimited others)]
    exact ih delimited.2

end PreparedSql.Calendar
