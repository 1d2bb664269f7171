import PreparedSql.Proofs.NumberFronts
import PreparedSql.Proofs.PatternChoice
import PreparedSql.Proofs.TemplateFilling

/-! A program that takes from a slice settles everything before it moves the slice. So a failure
leaves the slice as it was, and an answer leaves the text behind what was taken. What was taken is
moreover the answer on its own: no reader looks further than it takes, or what it sees there does not
matter to it. -/
namespace PreparedSql

namespace Text

variable {cs front rest taken back : List Char} {n : ℕ}

/-! ### Cuts -/

theorem byteCount_append (front back : List Char) :
    byteCount (front ++ back) = byteCount front + byteCount back := by
  induction front with
  | nil => simp [byteCount]
  | cons c front ih => rw [List.cons_append, byteCount, byteCount, ih, Nat.add_assoc]

theorem eq_nil_of_byteCount (none : byteCount cs = 0) : cs = [] := by
  cases cs with
  | nil => rfl
  | cons c cs =>
    have positive := c.utf8Size_pos
    rw [byteCount] at none
    omega

/-- Whether a cut falls between two characters is decided by the text before the cut. -/
theorem splitBytes?_isSome_front (split : splitBytes? n (front ++ rest) = some (taken, back))
    (inside : n ≤ byteCount front) : (splitBytes? n front).isSome = true := by
  obtain ⟨joined, size⟩ := splitBytes?_append split
  obtain ⟨more, rfl⟩ : ∃ more, front = taken ++ more := by
    rcases List.append_eq_append_iff.mp joined with ⟨more, within, -⟩ | ⟨more, beyond, -⟩
    · exact ⟨more, within⟩
    · rw [beyond, byteCount_append] at size
      have nothing : byteCount more = 0 := by omega
      obtain rfl := eq_nil_of_byteCount nothing
      exact ⟨[], by rw [beyond, List.append_nil, List.append_nil]⟩
  rw [← size, splitBytes?_byteCount]
  rfl

/-- The mark of hexadecimal digits is told by the front of the text. -/
theorem unmark_append (cut : unmark cs = front ++ rest) :
    ∃ mark, cs = mark ++ front ++ rest ∧ unmark (mark ++ front) = front := by
  by_cases marked : ∃ c more, cs = '\\' :: c :: more ∧ (c = 'x' ∨ c = 'X')
  · obtain ⟨c, more, rfl, letter⟩ := marked
    have behind (more : List Char) : unmark ('\\' :: c :: more) = more := if_pos letter
    rw [behind] at cut
    exact ⟨['\\', c], by rw [cut]; rfl, behind front⟩
  · have bare {cs : List Char}
        (unmarked : ¬ ∃ c more, cs = '\\' :: c :: more ∧ (c = 'x' ∨ c = 'X')) : unmark cs = cs := by
      unfold unmark
      split
      · next c more => exact if_neg fun letter => unmarked ⟨c, more, rfl, letter⟩
      · rfl
    rw [bare marked] at cut
    refine ⟨[], cut, bare ?_⟩
    rintro ⟨c, more, rfl, letter⟩
    exact marked ⟨c, more ++ rest, cut, letter⟩

end Text

namespace Native

open Calendar

variable {α β : Type}

/-! ### Programs settle before they move -/

/-- The slice behind a reader that answers, and the slice itself where the reader fails. -/
def outcome (s : String) :
    Except ConversionFault (α × String) → EStateM.Result ConversionFault String α
  | .ok (x, rest) => .ok x rest
  | .error fault => .error fault s

theorem extractBytes_unmark (s : String) : extractBytes s =
    if 2 ≤ s.utf8ByteSize ∧ (Text.splitBytes? 2 s.toList).isNone then .error .splitCharacter
    else match Text.hexDecodeChars ((Text.unmark s.toList).takeWhile Text.isHexDigit) with
      | none => .error (.noBytes s)
      | some b => .ok (b, String.ofList ((Text.unmark s.toList).drop
          ((Text.unmark s.toList).takeWhile Text.isHexDigit).length)) := rfl

theorem extractDecimal_unsign (s : String) : extractDecimal s =
    match DecimalReader.decimal? (NumberReader.unsign s.toList).1
        ((NumberReader.unsign s.toList).2.takeWhile DecimalReader.isNumeral) with
      | none => .error (.noDecimal s)
      | some d => .ok (d, String.ofList ((NumberReader.unsign s.toList).2.drop
          ((NumberReader.unsign s.toList).2.takeWhile DecimalReader.isNumeral).length)) := rfl

namespace Take

theorem run_look (next : String → Take α) (s : String) :
    EStateM.run (do let s ← get; next s) s = (next s).run s := rfl

theorem run_check (fault : ConversionFault) (o : Option α) (next : α → Take β) (s : String) :
    EStateM.run (do let x ← orElseFail fault o; next x) s = match o with
      | none => .error fault s
      | some x => (next x).run s := by
  cases o <;> rfl

/-- A program that is tried again goes on where the first try left the slice. -/
theorem run_recover (program : Take α) (handle : ConversionFault → Take α) (s : String) :
    EStateM.run (tryCatch program handle) s = match program.run s with
      | .ok x rest => .ok x rest
      | .error fault left => (handle fault).run left := by
  change EStateM.tryCatch program handle s = _
  rw [EStateM.tryCatch, EStateM.run]
  cases program s <;> rfl

theorem run_map (f : α → β) (program : Take α) (s : String) :
    EStateM.run (f <$> program) s = match program.run s with
      | .ok x rest => .ok (f x) rest
      | .error fault left => .error fault left := by
  change EStateM.map f program s = _
  rw [EStateM.map, EStateM.run]
  cases program s <;> rfl

theorem wholeNumber_run (k : IntKind) (s : String) :
    (wholeNumber k).run s = outcome s (extractInt k s) := by
  rw [wholeNumber, run_look, run_check, extractInt]
  obtain ⟨taken, number⟩ := NumberReader.signedDigits s.toList
  cases number with
  | none => rfl
  | some n =>
    dsimp only
    rw [run_check]
    cases Ranged.ofInt? k n <;> rfl

theorem binary_run {f : BinaryFormat} (s : String) :
    (binary (f := f)).run s = outcome s (extractBinary s) := by
  rw [binary, run_look, run_check, extractBinary]
  cases NumberReader.binary? (f := f) s.toList <;> rfl

theorem truth_run (s : String) : truth.run s = outcome s (extractBoolean s) := by
  rw [truth, run_look, extractBoolean]
  dsimp only
  rw [run_check]
  cases truth? (Text.spanWhile Text.isAlphanumeric s).1 <;> rfl

theorem hexadecimal_run (s : String) : hexadecimal.run s = outcome s (extractBytes s) := by
  rw [hexadecimal, run_look, extractBytes_unmark]
  by_cases inside : 2 ≤ s.utf8ByteSize ∧ (Text.splitBytes? 2 s.toList).isNone
  · simp only [if_pos inside]
    rfl
  · simp only [if_neg inside]
    rw [run_check]
    cases Text.hexDecodeChars ((Text.unmark s.toList).takeWhile Text.isHexDigit) <;> rfl

theorem decimalNumber_run (s : String) : decimalNumber.run s = outcome s (extractDecimal s) := by
  rw [decimalNumber, run_look, extractDecimal_unsign]
  dsimp only
  rw [run_check]
  cases DecimalReader.decimal? (NumberReader.unsign s.toList).1
    ((NumberReader.unsign s.toList).2.takeWhile DecimalReader.isNumeral) <;> rfl

theorem parts_run (t : Native) (patterns : List (List Field)) (build : Parts → Option α)
    (s : String) : (parts t patterns build).run s = outcome s (extractParts t patterns build s) := by
  rw [parts, run_look, run_check, extractParts]
  cases firstMatch? patterns s.toList with
  | none => rfl
  | some taken =>
    dsimp only
    rw [run_check]
    cases build taken.1 <;> rfl

/-- The second try finds the slice where the first one began. -/
theorem zonedMoment_run (s : String) : zonedMoment.run s = outcome s (extractZoned s) := by
  rw [zonedMoment, run_recover, parts_run, extractZoned]
  cases extractParts zoned zonedPatterns Parts.zoned? s with
  | ok taken => rfl
  | error fault =>
    cases fault with
    | noMoment =>
      show EStateM.run (ZonedMoment.utc <$> _) s = _
      rw [run_map, parts_run, extractMoment]
      cases extractParts moment momentPatterns Parts.moment? s <;> rfl
    | _ => rfl

theorem identifier_run (s : String) : identifier.run s = outcome s (extractUuid s) := by
  rw [identifier, run_look, run_check, extractUuid]
  cases Text.splitBytes? Uuid.textLength s.toList with
  | none => rfl
  | some taken =>
    dsimp only
    rw [run_check]
    cases Uuid.ofChars? taken.1 <;> rfl

end Take

/-- A program takes what its reader extracts, all of it or nothing. -/
theorem take_run (t : Native) (s : String) : t.take.run s = outcome s (extract t s) := by
  cases t with
  | int k => exact Take.wholeNumber_run k s
  | single => exact Take.binary_run s
  | double => exact Take.binary_run s
  | boolean => exact Take.truth_run s
  | bytes => exact Take.hexadecimal_run s
  | decimal => exact Take.decimalNumber_run s
  | date => exact Take.parts_run date datePatterns Parts.date? s
  | time => exact Take.parts_run time timePatterns Parts.time? s
  | moment => exact Take.parts_run moment momentPatterns Parts.moment? s
  | zoned => exact Take.zonedMoment_run s
  | uuid => exact Take.identifier_run s
  | text | borrowedText | optional | sequence => rfl

/-! ### Readers take their front alone -/

/-- What is taken from the front of a text is the answer on its own. -/
def TakesFrontAlone (read : String → Except ConversionFault (α × String)) : Prop :=
  ∀ s x rest, read s = .ok (x, rest) → ∃ taken, s = taken ++ rest ∧ read taken = .ok (x, "")

/-- A front is cut off a text where its characters are. -/
theorem takesFrontAlone_of_chars {read : String → Except ConversionFault (α × String)}
    (chars : ∀ s x rest, read s = .ok (x, rest) →
      ∃ taken, s.toList = taken ++ rest.toList ∧ read (String.ofList taken) = .ok (x, "")) :
    TakesFrontAlone read := by
  intro s x rest known
  obtain ⟨taken, cut, alone⟩ := chars s x rest known
  refine ⟨String.ofList taken, ?_, alone⟩
  rw [← String.toList_inj, String.toList_append, String.toList_ofList, cut]

theorem extractInt_front (k : IntKind) : TakesFrontAlone (extractInt k) := by
  apply takesFrontAlone_of_chars
  intro s n rest read
  obtain ⟨taken, spelled, cut⟩ := extractInt_ok read
  refine ⟨taken, cut, extractInt_spelled ?_⟩
  rwa [String.toList_ofList]

theorem extractBinary_front {f : BinaryFormat} : TakesFrontAlone (extractBinary (f := f)) := by
  apply takesFrontAlone_of_chars
  intro s x rest read
  rw [extractBinary] at read
  split at read
  · cases read
  · next more number =>
    cases read
    obtain ⟨taken, cut, alone⟩ := NumberReader.binary?_front _ _ _ number
    refine ⟨taken, by rw [cut, String.toList_ofList], ?_⟩
    rw [extractBinary, String.toList_ofList, alone]

theorem extractBoolean_front : TakesFrontAlone extractBoolean := by
  apply takesFrontAlone_of_chars
  intro s b rest read
  rw [extractBoolean, Text.spanWhile] at read
  dsimp only at read
  split at read
  · cases read
  · next word =>
    cases read
    have letters : ∀ c ∈ s.toList.takeWhile Text.isAlphanumeric, Text.isAlphanumeric c = true :=
      fun _ member => List.mem_takeWhile_imp member
    refine ⟨s.toList.takeWhile Text.isAlphanumeric, ?_, ?_⟩
    · rw [String.toList_ofList, List.takeWhile_append_dropWhile]
    · rw [extractBoolean, Text.spanWhile, String.toList_ofList,
        List.takeWhile_eq_self_iff.mpr letters, List.dropWhile_eq_nil_iff.mpr letters]
      dsimp only
      rw [word]

theorem extractText_front : TakesFrontAlone (extract text) := by
  intro s x rest read
  cases read
  exact ⟨s, s.append_empty.symm, rfl⟩

/-- The run at the front of a text, and what is behind it. -/
theorem run_cut (p : Char → Bool) (cs : List Char) :
    ∃ run behind, cs = run ++ behind ∧ (∀ c ∈ run, p c = true) ∧ cs.takeWhile p = run ∧
      cs.drop run.length = behind := by
  refine ⟨cs.takeWhile p, cs.dropWhile p, List.takeWhile_append_dropWhile.symm,
    fun _ member => List.mem_takeWhile_imp member, rfl, ?_⟩
  have joined := List.takeWhile_append_dropWhile (p := p) (l := cs)
  generalize cs.takeWhile p = run, cs.dropWhile p = behind at joined
  rw [← joined, List.drop_left]

/-- The second byte lies inside a character of a front only where it does so in the whole text. -/
theorem splitCharacter_front {s taken : String} {rest : List Char}
    (outside : ¬ (2 ≤ s.utf8ByteSize ∧ (Text.splitBytes? 2 s.toList).isNone = true))
    (cut : s.toList = taken.toList ++ rest) :
    ¬ (2 ≤ taken.utf8ByteSize ∧ (Text.splitBytes? 2 taken.toList).isNone = true) := by
  rintro ⟨long, unsplit⟩
  refine outside ⟨?_, ?_⟩
  · rw [← Text.byteCount_toList] at long ⊢
    rw [cut, Text.byteCount_append]
    omega
  · rw [cut]
    cases split : Text.splitBytes? 2 (taken.toList ++ rest) with
    | none => rfl
    | some halves =>
      rw [← Text.byteCount_toList] at long
      have within := Text.splitBytes?_isSome_front split long
      rw [Option.isNone_iff_eq_none.mp unsplit] at within
      cases within

theorem extractBytes_front : TakesFrontAlone extractBytes := by
  apply takesFrontAlone_of_chars
  intro s b rest read
  obtain ⟨digits, behind, body, all, run, dropped⟩ := run_cut Text.isHexDigit (Text.unmark s.toList)
  obtain ⟨mark, cut, alone⟩ := Text.unmark_append body
  rw [extractBytes_unmark, run, dropped] at read
  split at read
  · cases read
  · next outside =>
    split at read
    · cases read
    · next decoded =>
      cases read
      have taken : s.toList = (String.ofList (mark ++ digits)).toList ++ behind := by
        rw [cut, String.toList_ofList]
      have inside := splitCharacter_front outside taken
      refine ⟨mark ++ digits, by rw [cut, String.toList_ofList], ?_⟩
      rw [extractBytes_unmark, if_neg inside, String.toList_ofList, alone,
        List.takeWhile_eq_self_iff.mpr all, decoded, List.drop_length]

theorem extractDecimal_front : TakesFrontAlone extractDecimal := by
  apply takesFrontAlone_of_chars
  intro s d rest read
  obtain ⟨digits, behind, body, all, run, dropped⟩ :=
    run_cut DecimalReader.isNumeral (NumberReader.unsign s.toList).2
  obtain ⟨sign, cut, alone⟩ := NumberReader.unsign_append body
  rw [extractDecimal_unsign, run, dropped] at read
  split at read
  · cases read
  · next number =>
    cases read
    refine ⟨sign ++ digits, by rw [cut, String.toList_ofList], ?_⟩
    rw [extractDecimal_unsign, String.toList_ofList, alone, List.takeWhile_eq_self_iff.mpr all, number,
      List.drop_length]

theorem extractParts_front {t : Native} {patterns : List (List Field)} (finest : FinestFirst patterns)
    (build : Parts → Option α) : TakesFrontAlone (extractParts t patterns build) := by
  apply takesFrontAlone_of_chars
  intro s x rest read
  obtain ⟨taken, p, cut, spelled, built⟩ := spells_of_extractParts read
  refine ⟨taken, cut, extractParts_of_spells finest ?_ built⟩
  rwa [String.toList_ofList]

theorem extractZoned_front : TakesFrontAlone extractZoned := by
  apply takesFrontAlone_of_chars
  intro s z rest read
  obtain ⟨taken, cut, spelled⟩ := spells_of_extractZoned read
  refine ⟨taken, cut, extractZoned_of_spells ?_⟩
  rwa [String.toList_ofList]

theorem extractUuid_front : TakesFrontAlone extractUuid := by
  apply takesFrontAlone_of_chars
  intro s u rest read
  rw [extractUuid] at read
  split at read
  · cases read
  · next candidate more split_off =>
    split at read
    · cases read
    · next known =>
      cases read
      obtain ⟨joined, size⟩ := Text.splitBytes?_append split_off
      have alone : Text.splitBytes? Uuid.textLength candidate = some (candidate, []) := by
        have whole := Text.splitBytes?_byteCount candidate []
        rwa [size, List.append_nil] at whole
      refine ⟨candidate, by rw [← joined, String.toList_ofList], ?_⟩
      rw [extractUuid, String.toList_ofList, alone]
      dsimp only
      rw [known]

theorem extract_front (t : Native) : TakesFrontAlone (extract t) := by
  cases t with
  | int k => exact extractInt_front k
  | single => exact extractBinary_front
  | double => exact extractBinary_front
  | boolean => exact extractBoolean_front
  | text => exact extractText_front
  | bytes => exact extractBytes_front
  | decimal => exact extractDecimal_front
  | date => exact extractParts_front finestFirst_date Parts.date?
  | time => exact extractParts_front finestFirst_time Parts.time?
  | moment => exact extractParts_front finestFirst_moment Parts.moment?
  | zoned => exact extractZoned_front
  | uuid => exact extractUuid_front
  | borrowedText | optional | sequence =>
    intro s x rest read
    cases read

/-- A program that fails leaves the slice as it was. One that answers leaves the text behind a front
that it took, and the front on its own is read as the same answer. -/
theorem take_front_or_nothing (t : Native) (s : String) :
    match t.take.run s with
    | .error _ left => left = s
    | .ok x left => ∃ taken, s = taken ++ left ∧ parse t taken = .ok x := by
  rw [take_run]
  cases read : extract t s with
  | error fault => rfl
  | ok taken =>
    obtain ⟨x, left⟩ := taken
    obtain ⟨taken, cut, alone⟩ := extract_front t s x left read
    refine ⟨taken, cut, parse_ok ?_ alone⟩
    rintro u rfl
    cases read

end Native

end PreparedSql
