import PreparedSql.Native.Slice
import PreparedSql.Proofs.ExactIntegers

/-! The front of a text that is read as a number is that number on its own, so what follows it has
no say in what is read. The reader of binary numbers goes as far as it can: over digits, a point and
an exponent, or over a word. It stops before what it cannot use, and there the front that it took
ends without changing what was read before. -/
namespace PreparedSql.NumberReader

open Text (digits_takeWhile takeWhile_digits takeWhile_run dropWhile_run)

variable {cs front back rest : List Char} {c : Char}

/-- What the reader takes from the front of a text, it takes from that front alone. -/
def ReadsFrontAlone {α : Type} (read : List Char → Option (α × List Char)) : Prop :=
  ∀ cs x rest, read cs = some (x, rest) → ∃ front, cs = front ++ rest ∧ read front = some (x, [])

/-! ### Signs -/

theorem unsign_bare (bare : ∀ c ∈ cs.head?, c ≠ '-' ∧ c ≠ '+') : unsign cs = (false, cs) := by
  cases cs with
  | nil => rfl
  | cons c cs => simp [unsign, bare c rfl]

/-- A sign is told apart from what follows it by the front of the text. -/
theorem unsign_append (cut : (unsign cs).2 = front ++ rest) :
    ∃ sign, cs = sign ++ front ++ rest ∧ unsign (sign ++ front) = ((unsign cs).1, front) := by
  have unsigned (bare : ∀ c ∈ cs.head?, c ≠ '-' ∧ c ≠ '+') :
      ∃ sign, cs = sign ++ front ++ rest ∧ unsign (sign ++ front) = ((unsign cs).1, front) := by
    rw [unsign_bare bare] at cut ⊢
    refine ⟨[], cut, unsign_bare ?_⟩
    intro c first
    refine bare c ?_
    rw [show cs = front ++ rest from cut]
    exact List.mem_head?_append_of_mem_head? first
  cases cs with
  | nil => exact unsigned (by simp)
  | cons c cs =>
    by_cases minus : c = '-'
    · subst minus
      exact ⟨['-'], congrArg ('-' :: ·) cut, rfl⟩
    · by_cases plus : c = '+'
      · subst plus
        exact ⟨['+'], congrArg ('+' :: ·) cut, rfl⟩
      · exact unsigned (by simp [minus, plus])

/-! ### Exponents -/

/-- The number that the digits of an exponent count up to. -/
def exponentOf (run : List Char) : ℕ :=
  run.foldl (fun n c => if n < exponentLimit then 10 * n + (c.toNat - 48) else n) 0

theorem exponentPart_mark (mark : c = 'e' ∨ c = 'E') (cs : List Char) : exponentPart (c :: cs) =
    if ((unsign cs).2.takeWhile Char.isDigit).isEmpty then (0, c :: cs)
    else (if (unsign cs).1 then -(exponentOf ((unsign cs).2.takeWhile Char.isDigit) : ℤ)
        else exponentOf ((unsign cs).2.takeWhile Char.isDigit),
      (unsign cs).2.dropWhile Char.isDigit) := by
  unfold exponentPart
  dsimp only
  rw [if_pos mark]
  rfl

theorem exponentPart_other (other : ¬ (c = 'e' ∨ c = 'E')) (cs : List Char) :
    exponentPart (c :: cs) = (0, c :: cs) :=
  if_neg other

/-- What an exponent takes begins with its mark, and says the same without what follows it. -/
theorem exponentPart_front (cs : List Char) :
    ∃ front, cs = front ++ (exponentPart cs).2 ∧ exponentPart front = ((exponentPart cs).1, []) ∧
      ∀ c ∈ front.head?, c = 'e' ∨ c = 'E' := by
  cases cs with
  | nil => exact ⟨[], rfl, rfl, by simp⟩
  | cons c cs =>
    have nothing (untaken : exponentPart (c :: cs) = (0, c :: cs)) :
        ∃ front, c :: cs = front ++ (exponentPart (c :: cs)).2 ∧
          exponentPart front = ((exponentPart (c :: cs)).1, []) ∧
          ∀ c ∈ front.head?, c = 'e' ∨ c = 'E' := by
      rw [untaken]
      exact ⟨[], rfl, rfl, by simp⟩
    by_cases mark : c = 'e' ∨ c = 'E'
    · by_cases none : ((unsign cs).2.takeWhile Char.isDigit).isEmpty
      · exact nothing (by rw [exponentPart_mark mark, if_pos none])
      · have cut := (List.takeWhile_append_dropWhile (p := Char.isDigit) (l := (unsign cs).2)).symm
        obtain ⟨sign, joined, alone⟩ := unsign_append cut
        have digits := digits_takeWhile (unsign cs).2
        refine ⟨c :: (sign ++ (unsign cs).2.takeWhile Char.isDigit), ?_, ?_, ?_⟩
        · rw [exponentPart_mark mark, if_neg none]
          exact congrArg (c :: ·) joined
        · rw [exponentPart_mark mark, exponentPart_mark mark, alone, takeWhile_digits digits,
            if_neg none, if_neg none, List.dropWhile_eq_nil_iff.mpr digits]
        · intro d first
          exact Option.some.inj first ▸ mark
    · exact nothing (exponentPart_other mark cs)

/-! ### Digits with a point -/

theorem head?_dropWhile (cs : List Char) :
    ∀ c ∈ (cs.dropWhile Char.isDigit).head?, c.isDigit = false := by
  intro c first
  have ends := List.head?_dropWhile_not Char.isDigit cs
  rw [show (cs.dropWhile Char.isDigit).head? = some c from first] at ends
  exact Bool.eq_false_iff.mpr (by simpa using ends)

/-- What can stand behind the digits of a number: nothing that is a digit, and no point. -/
def Past (back : List Char) : Prop :=
  ∀ c ∈ back.head?, c.isDigit = false ∧ c ≠ '.'

theorem past_of_mark (mark : ∀ c ∈ back.head?, c = 'e' ∨ c = 'E') : Past back := by
  intro c first
  rcases mark c first with rfl | rfl <;> decide

theorem written?_pointed {whole fraction : List Char} (digits : Text.Digits whole)
    (places : Text.Digits fraction) (ends : ∀ c ∈ back.head?, c.isDigit = false) :
    written? (whole ++ '.' :: (fraction ++ back)) =
      if whole.isEmpty && fraction.isEmpty then none
      else some (⟨Text.digitsValue (whole ++ fraction), (exponentPart back).1 - fraction.length⟩,
        (exponentPart back).2) := by
  have point : ∀ c ∈ ('.' :: (fraction ++ back)).head?, c.isDigit = false := by
    intro c first
    cases first
    rfl
  rw [written?, takeWhile_run digits point, dropWhile_run digits point]
  simp only [takeWhile_run places ends, dropWhile_run places ends]

theorem written?_plain {whole : List Char} (digits : Text.Digits whole)
    (ends : ∀ c ∈ back.head?, c.isDigit = false) (pointless : ∀ more, back ≠ '.' :: more) :
    written? (whole ++ back) = if whole.isEmpty then none
      else some (⟨Text.digitsValue whole, (exponentPart back).1⟩, (exponentPart back).2) := by
  rw [written?, takeWhile_run digits ends, dropWhile_run digits ends]
  split
  next fraction more same =>
    split at same
    · next others => exact absurd rfl (pointless others)
    · cases same
      simp

/-- The front that a number takes ends in its digits or in its exponent, where it ends on its own. -/
theorem written?_front : ReadsFrontAlone written? := by
  intro cs w rest read
  have whole := digits_takeWhile cs
  have joined := List.takeWhile_append_dropWhile (p := Char.isDigit) (l := cs)
  have stops := head?_dropWhile cs
  generalize cs.takeWhile Char.isDigit = run at whole joined
  generalize cs.dropWhile Char.isDigit = behind at joined stops
  subst joined
  by_cases pointed : ∃ more, behind = '.' :: more
  · obtain ⟨more, rfl⟩ := pointed
    have places := digits_takeWhile more
    have parted := List.takeWhile_append_dropWhile (p := Char.isDigit) (l := more)
    have ends := head?_dropWhile more
    generalize more.takeWhile Char.isDigit = fraction at places parted
    generalize more.dropWhile Char.isDigit = back at parted ends
    subst parted
    obtain ⟨front, cut, alone, mark⟩ := exponentPart_front back
    rw [written?_pointed whole places ends] at read
    split at read
    · cases read
    · next some =>
      cases read
      refine ⟨run ++ '.' :: (fraction ++ front), ?_, ?_⟩
      · simp only [List.append_assoc, List.cons_append, ← cut]
      · rw [written?_pointed whole places fun c first => (past_of_mark mark c first).1, if_neg some,
          alone]
  · have pointless : ∀ more, behind ≠ '.' :: more := fun more same => pointed ⟨more, same⟩
    obtain ⟨front, cut, alone, mark⟩ := exponentPart_front behind
    rw [written?_plain whole stops pointless] at read
    split at read
    · cases read
    · next some =>
      cases read
      refine ⟨run ++ front, ?_, ?_⟩
      · rw [List.append_assoc, ← cut]
      · have past := past_of_mark mark
        rw [written?_plain whole (fun c first => (past c first).1), if_neg some, alone]
        rintro more rfl
        exact (past '.' rfl).2 rfl

/-- A number is begun by a digit, or by a point with a digit behind it. -/
theorem written?_eq_none_iff : written? cs = none ↔
    cs.takeWhile Char.isDigit = [] ∧ ∀ more, cs = '.' :: more → more.takeWhile Char.isDigit = [] := by
  by_cases started : cs.takeWhile Char.isDigit = []
  · have whole : cs.dropWhile Char.isDigit = cs := by
      simpa [started] using List.takeWhile_append_dropWhile (p := Char.isDigit) (l := cs)
    simp only [written?, started, whole, true_and]
    by_cases pointed : ∃ more, cs = '.' :: more
    · obtain ⟨more, rfl⟩ := pointed
      simp
    · have pointless : ∀ more, cs ≠ '.' :: more := fun more same => pointed ⟨more, same⟩
      simp [pointless]
  · simp [written?, started]

theorem takeWhile_cut (none : (front ++ rest).takeWhile Char.isDigit = []) :
    front.takeWhile Char.isDigit = [] := by
  cases front with
  | nil => rfl
  | cons c front =>
    rw [List.cons_append, List.takeWhile_cons] at none
    rw [List.takeWhile_cons]
    split at none
    · cases none
    · next other => rw [if_neg other]

/-- What begins no number does so no more when it is cut short. -/
theorem written?_cut (unread : written? (front ++ rest) = none) : written? front = none := by
  obtain ⟨started, pointed⟩ := written?_eq_none_iff.mp unread
  refine written?_eq_none_iff.mpr ⟨takeWhile_cut started, ?_⟩
  rintro more rfl
  exact takeWhile_cut (pointed (more ++ rest) rfl)

/-! ### Words -/

theorem dropWord?_front {word : List Char} (read : dropWord? word cs = some rest) :
    ∃ front, cs = front ++ rest ∧ front.length = word.length ∧ dropWord? word front = some [] := by
  rw [dropWord?] at read
  split at read
  · next same =>
    cases read
    refine ⟨cs.take word.length, (List.take_append_drop ..).symm, ?_, ?_⟩
    · rw [← List.length_map Char.toLower, same]
    · rw [dropWord?, List.take_take, min_self, if_pos same, List.drop_take_self]
  · cases read

/-- A word that a front begins with stands at the front of the text. -/
theorem dropWord?_append {word : List Char} (read : dropWord? word front = some back) :
    dropWord? word (front ++ rest) = some (back ++ rest) := by
  obtain ⟨letters, rfl, long, alone⟩ := dropWord?_front read
  have same : (letters.take word.length).map Char.toLower = word := by
    rw [dropWord?] at alone
    split at alone
    · next same => exact same
    · cases alone
  rw [dropWord?, List.append_assoc, List.take_append_of_le_length long.ge, if_pos same, ← long,
    List.drop_left]

theorem dropWord?_cut {word : List Char} (unread : dropWord? word (front ++ rest) = none) :
    dropWord? word front = none := by
  cases read : dropWord? word front with
  | none => rfl
  | some back =>
    rw [dropWord?_append read] at unread
    cases unread

theorem word?_front {f : BinaryFormat} (negative : Bool) :
    ReadsFrontAlone (word? (f := f) negative) := by
  intro cs x rest read
  -- a word that was tried before in vain is not found on the front either
  rw [word?] at read
  split at read
  · next nan =>
    cases read
    obtain ⟨front, joined, -, alone⟩ := dropWord?_front nan
    exact ⟨front, joined, by rw [word?, alone]⟩
  · next noNan =>
    split at read
    · next infinity =>
      cases read
      obtain ⟨front, rfl, -, alone⟩ := dropWord?_front infinity
      exact ⟨front, rfl, by rw [word?, dropWord?_cut noNan, alone]⟩
    · next noInfinity =>
      obtain ⟨more, inf, same⟩ := Option.map_eq_some_iff.mp read
      cases same
      obtain ⟨front, rfl, -, alone⟩ := dropWord?_front inf
      exact ⟨front, rfl, by rw [word?, dropWord?_cut noNan, dropWord?_cut noInfinity, alone]; rfl⟩

/-! ### Binary numbers -/

theorem binary?_unsign {f : BinaryFormat} (cs : List Char) : binary? (f := f) cs =
    match written? (unsign cs).2 with
    | some (w, rest) => some (.nearest (unsign cs).1 (w.digits * Nat.pow 10 w.exponent.toNat)
        (Nat.pow 10 (-w.exponent).toNat), rest)
    | none => word? (unsign cs).1 (unsign cs).2 := rfl

/-- Behind its sign a binary number is written with digits or is a word, and a word begins no number. -/
theorem binary?_front {f : BinaryFormat} : ReadsFrontAlone (binary? (f := f)) := by
  intro cs x rest read
  rw [binary?_unsign] at read
  split at read
  · next w more written =>
    cases read
    obtain ⟨front, cut, alone⟩ := written?_front _ _ _ written
    obtain ⟨sign, joined, same⟩ := unsign_append cut
    refine ⟨sign ++ front, joined, ?_⟩
    rw [binary?_unsign, same, alone]
  · next unwritten =>
    obtain ⟨front, cut, alone⟩ := word?_front _ _ _ _ read
    obtain ⟨sign, joined, same⟩ := unsign_append cut
    rw [cut] at unwritten
    refine ⟨sign ++ front, joined, ?_⟩
    rw [binary?_unsign, same, written?_cut unwritten, alone]

end PreparedSql.NumberReader
