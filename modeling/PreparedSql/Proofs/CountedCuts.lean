import PreparedSql.Native.Counted
import PreparedSql.Proofs.SliceContract

/-! Counts of bytes lead to places between characters. What a reader has read is a front of the text,
so its bytes, or those that are left of all, end where a character ends. The one count that says
nothing about the characters before it is the two bytes of the mark of hexadecimal digits: there the
program stops when the second byte lies inside a character. So programs that count bytes take what the
programs on characters take. -/
namespace PreparedSql

/-- Case is folded in the letters from A to Z. -/
theorem toNat_toLower (c : Char) :
    c.toLower.toNat = if 65 ≤ c.toNat ∧ c.toNat ≤ 90 then c.toNat + 32 else c.toNat := by
  have upper : (c.val ≥ 'A'.val ∧ c.val ≤ 'Z'.val) ↔ 65 ≤ c.toNat ∧ c.toNat ≤ 90 := by
    simp only [ge_iff_le, UInt32.le_iff_toNat_le]
    rfl
  unfold Char.toLower
  by_cases letter : 65 ≤ c.toNat ∧ c.toNat ≤ 90
  · have shift : ('a'.val - 'A'.val).toNat = 32 := rfl
    rw [dif_pos (upper.mpr letter), if_pos letter]
    show (c.val + ('a'.val - 'A'.val)).toNat = _
    rw [UInt32.toNat_add, shift]
    show (c.toNat + 32) % _ = _
    omega
  · rw [dif_neg (mt upper.mp letter), if_neg letter]

namespace Text

variable {cs front back rest : List Char} {n : ℕ}

/-! ### Where a text can be cut -/

/-- A front of a text is told by the bytes it takes. -/
theorem front_of_byteCount {front' back' : List Char} (joined : front ++ back = front' ++ back')
    (size : byteCount front = byteCount front') : front = front' := by
  have cut := splitBytes?_byteCount front back
  rw [joined, size, splitBytes?_byteCount] at cut
  exact (congrArg Prod.fst (Option.some.inj cut)).symm

/-- What is left of all bytes of a text tells where its rest begins. -/
theorem splitBytes?_of_rest {s : String} (cut : s.toList = front ++ rest) :
    splitBytes? (s.utf8ByteSize - byteCount rest) s.toList = some (front, rest) := by
  have left : s.utf8ByteSize - byteCount rest = byteCount front := by
    rw [← byteCount_toList, cut, byteCount_append]
    omega
  rw [left, cut, splitBytes?_byteCount]

theorem splitBytes?_takeWhile (test : Char → Bool) (cs : List Char) :
    splitBytes? (byteCount (cs.takeWhile test)) cs =
      some (cs.takeWhile test, cs.dropWhile test) := by
  have cut := splitBytes?_byteCount (cs.takeWhile test) (cs.dropWhile test)
  rwa [List.takeWhile_append_dropWhile] at cut

theorem drop_takeWhile (test : Char → Bool) (cs : List Char) :
    cs.drop (cs.takeWhile test).length = cs.dropWhile test := by
  have joined := List.takeWhile_append_dropWhile (p := test) (l := cs)
  generalize cs.takeWhile test = run, cs.dropWhile test = behind at joined
  rw [← joined, List.drop_left]

/-- The characters that fit take at least as many bytes as any front that fits. -/
theorem byteCount_le_takeBytes (rest : List Char) (fits : byteCount front ≤ n) :
    byteCount front ≤ byteCount (takeBytes n (front ++ rest)) := by
  induction front generalizing n with
  | nil => exact Nat.zero_le _
  | cons c front ih =>
    rw [byteCount] at fits ⊢
    have first : c.utf8Size ≤ n := by omega
    have others := ih (n := n - c.utf8Size) (by omega)
    rw [List.cons_append, takeBytes, if_pos first, byteCount]
    omega

/-- A text is cut last behind the characters that fit. -/
theorem lastCut_eq (cs : List Char) (n : ℕ) : lastCut cs n = byteCount (takeBytes n cs) := by
  induction n with
  | zero => exact (Nat.le_zero.mp (takeBytes_fits 0 cs)).symm
  | succ n ih =>
    obtain ⟨back, joined⟩ := takeBytes_prefix (n + 1) cs
    have most := takeBytes_fits (n + 1) cs
    rw [lastCut]
    split
    · next found =>
      obtain ⟨⟨front, rest⟩, split⟩ := Option.isSome_iff_exists.mp found
      obtain ⟨rfl, size⟩ := splitBytes?_append split
      have least := byteCount_le_takeBytes rest (Nat.le_of_eq size)
      omega
    · next uncut =>
      -- No character ends at the greater count, so what fits in it fits in the lesser one.
      have short : byteCount (takeBytes (n + 1) cs) ≠ n + 1 := by
        intro full
        have cut := splitBytes?_byteCount (takeBytes (n + 1) cs) back
        rw [joined, full] at cut
        exact uncut (Option.isSome_of_eq_some cut)
      have fits : byteCount (takeBytes (n + 1) cs) ≤ n := by omega
      have least := byteCount_le_takeBytes back fits
      rw [joined] at least
      obtain ⟨back', joined'⟩ := takeBytes_prefix n cs
      have more := byteCount_le_takeBytes (n := n + 1) back'
        (Nat.le_trans (takeBytes_fits n cs) (Nat.le_succ n))
      rw [joined'] at more
      omega

/-- The cut of a long text in a message falls between two characters. -/
theorem truncatedAtCut?_eq (s : String) : truncatedAtCut? s = some (truncated s) := by
  rw [truncatedAtCut?, truncated]
  split
  · rfl
  · obtain ⟨rest, joined⟩ := takeBytes_prefix shownBytes s.toList
    have cut := splitBytes?_byteCount (takeBytes shownBytes s.toList) rest
    rw [joined] at cut
    rw [lastCut_eq, cut]
    rfl

/-! ### The mark of hexadecimal digits -/

theorem toLower_eq_mark_iff (front : List Char) : (String.ofList front).toLower = "\\x" ↔
    ∃ d, front = ['\\', d] ∧ (d = 'x' ∨ d = 'X') := by
  have letter (d : Char) : d.toLower = 'x' ↔ d = 'x' ∨ d = 'X' := by
    have lower : 'x'.toNat = 120 := rfl
    have upper : 'X'.toNat = 88 := rfl
    simp only [← Char.toNat_inj, toNat_toLower, lower, upper]
    split <;> omega
  have slash (c : Char) : c.toLower = '\\' ↔ c = '\\' := by
    have number : '\\'.toNat = 92 := rfl
    simp only [← Char.toNat_inj, toNat_toLower, number]
    split <;> omega
  have folded : (String.ofList front).toLower.toList = front.map Char.toLower :=
    String.toList_map.trans (by rw [String.toList_ofList])
  have mark : "\\x".toList = ['\\', 'x'] := rfl
  rw [← String.toList_inj, folded, mark]
  constructor
  · intro same
    obtain ⟨c, rest, rfl, first, same⟩ := List.map_eq_cons_iff.mp same
    obtain ⟨d, rest, rfl, second, same⟩ := List.map_eq_cons_iff.mp same
    obtain rfl := List.map_eq_nil_iff.mp same
    rw [(slash c).mp first]
    exact ⟨d, rfl, (letter d).mp second⟩
  · rintro ⟨d, rfl, marked⟩
    rw [List.map_cons, List.map_singleton, (letter d).mpr marked]
    rfl

/-- The first two bytes tell whether the mark is there. -/
theorem unmark_of_front (size : byteCount front = 2) : unmark (front ++ back) =
    if (String.ofList front).toLower = "\\x" then back else front ++ back := by
  split
  · next marked =>
    obtain ⟨d, rfl, letter⟩ := (toLower_eq_mark_iff front).mp marked
    exact if_pos letter
  · next unmarked =>
    unfold unmark
    split
    · next d rest joined =>
      rw [if_neg]
      intro letter
      -- The two characters of a mark take two bytes, so they are all of the front.
      have wide : byteCount ['\\', d] = 2 := by
        rcases letter with rfl | rfl <;> rfl
      have listed : front ++ back = ['\\', d] ++ rest := joined
      have same : front = ['\\', d] := front_of_byteCount listed (size.trans wide.symm)
      exact unmarked ((toLower_eq_mark_iff front).mpr ⟨d, same, letter⟩)
    · rfl

/-- A text of fewer than two bytes is no mark. -/
theorem unmark_of_short (short : byteCount cs < 2) : unmark cs = cs := by
  unfold unmark
  split
  · next c rest =>
    have first := ('\\').utf8Size_pos
    have second := c.utf8Size_pos
    simp only [byteCount] at short
    omega
  · rfl

end Text

namespace NumberReader

open Text (Digits digits_takeWhile)

/-- The front that is read as a whole number is a sign, if there is one, and digits, if there are
any. -/
theorem signedDigits_cut (cs : List Char) : ∃ sign digits rest, cs = sign ++ digits ++ rest ∧
    (∀ c ∈ sign, Native.Counted.isSign c = true) ∧ Digits digits ∧
    (signedDigits cs).1 = sign ++ digits ∧ ((signedDigits cs).2 = none ↔ digits = []) := by
  have run (cs : List Char) : cs = cs.takeWhile Char.isDigit ++ cs.dropWhile Char.isDigit :=
    List.takeWhile_append_dropWhile.symm
  have unsigned (bare : ∀ c ∈ cs.head?, c ≠ '-' ∧ c ≠ '+') : ∃ sign digits rest,
      cs = sign ++ digits ++ rest ∧ (∀ c ∈ sign, Native.Counted.isSign c = true) ∧ Digits digits ∧
      (signedDigits cs).1 = sign ++ digits ∧ ((signedDigits cs).2 = none ↔ digits = []) := by
    refine ⟨[], _, _, run cs, by simp, digits_takeWhile cs, ?_, ?_⟩
    · rw [Text.signedDigits_unsigned bare, List.nil_append]
    · rw [Text.signedDigits_unsigned bare]
      simp
  cases cs with
  | nil => exact unsigned (by simp)
  | cons c cs =>
    by_cases minus : c = '-'
    · subst minus
      refine ⟨['-'], _, _, congrArg ('-' :: ·) (run cs), by simp [Native.Counted.isSign],
        digits_takeWhile cs, rfl, ?_⟩
      rw [Text.signedDigits_minus]
      simp
    · by_cases plus : c = '+'
      · subst plus
        refine ⟨['+'], _, _, congrArg ('+' :: ·) (run cs), by simp [Native.Counted.isSign],
          digits_takeWhile cs, rfl, ?_⟩
        rw [Text.signedDigits_plus]
        simp
      · exact unsigned (by simp [minus, plus])

end NumberReader

namespace Native

open Calendar

variable {α β : Type} {s t : String} {front back : List Char} {n : ℕ}

namespace Counted

/-! ### Cuts of a slice -/

theorem run_upTo (cut : Text.splitBytes? n t.toList = some (front, back)) (next : String → Take β) :
    EStateM.run (do let x ← upTo n t; next x) s = (next (String.ofList front)).run s := by
  rw [upTo, cut]
  rfl

theorem run_behind (cut : Text.splitBytes? n t.toList = some (front, back))
    (next : String → Take β) :
    EStateM.run (do let x ← behind n t; next x) s = (next (String.ofList back)).run s := by
  rw [behind, cut]
  rfl

theorem run_consume (test : Char → Bool) (next : String × String → Take β) :
    EStateM.run (do let x ← consume test t; next x) s =
      (next (String.ofList (t.toList.takeWhile test),
        String.ofList (t.toList.dropWhile test))).run s := by
  have cut := Text.splitBytes?_takeWhile test t.toList
  simp only [consume, behind, upTo, cut]
  rfl

/-- The mark is looked for in the first two bytes, if there are as many. -/
theorem run_unmarked (next : String → Take β) :
    EStateM.run (do let x ← unmarked t; next x) s =
      if 2 ≤ t.utf8ByteSize ∧ (Text.splitBytes? 2 t.toList).isNone then .error .splitCharacter s
      else (next (String.ofList (Text.unmark t.toList))).run s := by
  by_cases long : 2 ≤ t.utf8ByteSize
  · cases split : Text.splitBytes? 2 t.toList with
    | none =>
      rw [if_pos ⟨long, rfl⟩]
      simp only [unmarked, if_pos long, upTo, split]
      rfl
    | some halves =>
      obtain ⟨front, back⟩ := halves
      obtain ⟨joined, size⟩ := Text.splitBytes?_append split
      rw [if_neg (by simp), ← joined, Text.unmark_of_front size]
      simp only [unmarked, if_pos long, upTo, behind, split]
      by_cases marked : (String.ofList front).toLower = "\\x"
      · rw [if_pos marked]
        simp only [Option.map_some, Take.orElseFail, pure_bind, if_pos marked]
      · rw [if_neg marked, joined, String.ofList_toList]
        simp only [Option.map_some, Take.orElseFail, pure_bind, if_neg marked]
  · have short : Text.byteCount t.toList < 2 := by
      rw [Text.byteCount_toList]
      omega
    rw [if_neg fun both => long both.1, Text.unmark_of_short short, String.ofList_toList]
    simp only [unmarked, if_neg long, pure_bind]

/-! ### Programs that count bytes -/

theorem wholeNumber_eq (k : IntKind) : wholeNumber k = Take.wholeNumber k := by
  funext s
  show (wholeNumber k).run s = (Take.wholeNumber k).run s
  obtain ⟨sign, digits, rest, joined, signs, decimal, taken, missing⟩ :=
    NumberReader.signedDigits_cut s.toList
  have cut := Text.splitBytes?_byteCount (sign ++ digits) rest
  have behindSign : (sign ++ digits).dropWhile isSign = digits := by
    refine Text.dropWhile_run signs fun c first => ?_
    obtain ⟨minus, plus⟩ := Text.not_sign_of_isDigit (decimal c (List.mem_of_mem_head? first))
    simp [isSign, minus, plus]
  have left : s.toList.drop (sign ++ digits).length = rest := by
    rw [joined, List.drop_left]
  rw [← joined] at cut
  rw [wholeNumber, Take.run_look, Take.wholeNumber, Take.run_look]
  generalize NumberReader.signedDigits s.toList = read at taken missing
  obtain ⟨spelled, number⟩ := read
  obtain rfl : spelled = sign ++ digits := taken
  dsimp only
  rw [run_upTo cut, String.toList_ofList, behindSign, Take.run_check, left]
  cases number with
  | none =>
    obtain rfl := missing.mp rfl
    rfl
  | some n =>
    have some_digit : digits.isEmpty = false := by
      rw [List.isEmpty_eq_false_iff]
      intro none
      cases missing.mpr none
    rw [some_digit, if_neg Bool.false_ne_true]
    dsimp only
    rw [Take.run_check, Take.run_check, Option.bind_some]
    cases Ranged.ofInt? k n with
    | none => rfl
    | some m => exact run_behind cut _

theorem binary_eq {f : BinaryFormat} : binary (f := f) = Take.binary := by
  funext s
  show binary.run s = Take.binary.run s
  rw [binary, Take.run_look, Take.run_check, Take.binary, Take.run_look, Take.run_check]
  cases read : NumberReader.binary? (f := f) s.toList with
  | none => rfl
  | some taken =>
    obtain ⟨x, rest⟩ := taken
    obtain ⟨front, joined, -⟩ := NumberReader.binary?_front _ _ _ read
    exact run_behind (Text.splitBytes?_of_rest joined) _

theorem truth_eq : truth = Take.truth := by
  funext s
  show truth.run s = Take.truth.run s
  rw [truth, Take.run_look, run_consume, Take.truth, Take.run_look]
  rfl

theorem hexadecimal_eq : hexadecimal = Take.hexadecimal := by
  funext s
  show hexadecimal.run s = Take.hexadecimal.run s
  rw [hexadecimal, Take.run_look, run_unmarked, Take.hexadecimal_run, extractBytes_unmark]
  by_cases inside : 2 ≤ s.utf8ByteSize ∧ (Text.splitBytes? 2 s.toList).isNone
  · rw [if_pos inside, if_pos inside]
    rfl
  · rw [if_neg inside, if_neg inside, run_consume, Take.run_check, String.toList_ofList,
      Text.hexDecode, String.toList_ofList, Text.drop_takeWhile]
    cases Text.hexDecodeChars ((Text.unmark s.toList).takeWhile Text.isHexDigit) <;> rfl

theorem decimalNumber_eq : decimalNumber = Take.decimalNumber := by
  funext s
  show decimalNumber.run s = Take.decimalNumber.run s
  obtain ⟨digits, rest, body, -, run, left⟩ :=
    run_cut DecimalReader.isNumeral (NumberReader.unsign s.toList).2
  obtain ⟨sign, joined, same⟩ := NumberReader.unsign_append body
  have counted : s.utf8ByteSize - (String.ofList (NumberReader.unsign s.toList).2).utf8ByteSize +
      (String.ofList digits).utf8ByteSize = Text.byteCount (sign ++ digits) := by
    have whole := congrArg Text.byteCount joined
    simp only [← Text.byteCount_toList, String.toList_ofList, body]
    simp only [Text.byteCount_append] at whole ⊢
    omega
  have cut := Text.splitBytes?_byteCount (sign ++ digits) rest
  rw [← joined, ← counted] at cut
  have behindDigits : (NumberReader.unsign s.toList).2.dropWhile DecimalReader.isNumeral = rest := by
    rw [← Text.drop_takeWhile, run, left]
  rw [decimalNumber, Take.run_look, Take.decimalNumber, Take.run_look]
  dsimp only
  rw [run_consume, String.toList_ofList, run, behindDigits, left]
  dsimp only
  rw [run_upTo cut, String.toList_ofList, same]

theorem parts_eq (t : Native) (patterns : List (List Field)) (build : Parts → Option α) :
    parts t patterns build = Take.parts t patterns build := by
  funext s
  show (parts t patterns build).run s = (Take.parts t patterns build).run s
  rw [parts, Take.run_look, Take.run_check, Take.parts, Take.run_look, Take.run_check]
  cases read : firstMatch? patterns s.toList with
  | none => rfl
  | some taken =>
    obtain ⟨p, rest⟩ := taken
    obtain ⟨text, joined, -⟩ := spells_of_firstMatch? read
    dsimp only
    rw [Take.run_check, Take.run_check]
    cases build p with
    | none => rfl
    | some x => exact run_behind (Text.splitBytes?_of_rest joined) _

theorem zonedMoment_eq : zonedMoment = Take.zonedMoment := by
  have tried : Take.zonedMoment = orAtUtc (Take.parts zoned zonedPatterns Parts.zoned?)
      (Take.parts moment momentPatterns Parts.moment?) := rfl
  rw [tried, zonedMoment, parts_eq, parts_eq]

theorem identifier_eq : identifier = Take.identifier := by
  funext s
  show identifier.run s = Take.identifier.run s
  rw [identifier, Take.run_look, Take.run_check, Take.identifier, Take.run_look, Take.run_check]
  cases split : Text.splitBytes? Uuid.textLength s.toList with
  | none => rfl
  | some taken =>
    obtain ⟨candidate, rest⟩ := taken
    dsimp only
    rw [Take.run_check, Take.run_check]
    cases Uuid.ofChars? candidate with
    | none => rfl
    | some u => exact run_behind split _

end Counted

/-- Counting bytes, a program takes what it takes on characters, and stops where that one stops. -/
theorem takeCounted_eq (t : Native) : t.takeCounted = t.take := by
  cases t with
  | int k => exact Counted.wholeNumber_eq k
  | single => exact Counted.binary_eq
  | double => exact Counted.binary_eq
  | boolean => exact Counted.truth_eq
  | bytes => exact Counted.hexadecimal_eq
  | decimal => exact Counted.decimalNumber_eq
  | date => exact Counted.parts_eq date datePatterns Parts.date?
  | time => exact Counted.parts_eq time timePatterns Parts.time?
  | moment => exact Counted.parts_eq moment momentPatterns Parts.moment?
  | zoned => exact Counted.zonedMoment_eq
  | uuid => exact Counted.identifier_eq
  | text | borrowedText | optional | sequence => rfl

end Native

end PreparedSql
