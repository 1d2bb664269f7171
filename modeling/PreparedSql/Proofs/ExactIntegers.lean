import PreparedSql.Proofs.DecimalColumns
import PreparedSql.Proofs.WrittenMoments

/-! Whole numbers convert exactly. A value stands for a whole number on its own account: a whole
number for itself, a decimal without a part behind the point for that number, a text for the number
that it spells between its blanks. Conversion to a width answers that number when the width has it,
and nothing otherwise, so that nothing is wrapped, cut off or rounded on the way. -/
namespace PreparedSql

namespace Text

open NumberReader

variable {cs taken : List Char} {n : ℕ} {m : ℤ}

/-! ### Spelled numbers -/

/-- One or more decimal digits spell a number; each further one is added to ten times the others. -/
inductive SpellsNat : List Char → ℕ → Prop where
  | digit {c : Char} (decimal : c.isDigit = true) : SpellsNat [c] (c.toNat - '0'.toNat)
  | further {cs : List Char} {n : ℕ} {c : Char} (front : SpellsNat cs n)
      (decimal : c.isDigit = true) : SpellsNat (cs ++ [c]) (10 * n + (c.toNat - '0'.toNat))

/-- Digits spell a whole number behind at most one sign. -/
inductive SpellsInt : List Char → ℤ → Prop where
  | unsigned {cs : List Char} {n : ℕ} (digits : SpellsNat cs n) : SpellsInt cs n
  | plus {cs : List Char} {n : ℕ} (digits : SpellsNat cs n) : SpellsInt ('+' :: cs) n
  | minus {cs : List Char} {n : ℕ} (digits : SpellsNat cs n) : SpellsInt ('-' :: cs) (-n)

theorem digitsValue_concat (cs : List Char) (c : Char) :
    digitsValue (cs ++ [c]) = 10 * digitsValue cs + (c.toNat - '0'.toNat) := by
  simp [digitsValue]

theorem spellsNat_iff : SpellsNat cs n ↔ Digits cs ∧ cs ≠ [] ∧ digitsValue cs = n := by
  constructor
  · intro spelled
    induction spelled with
    | digit decimal => exact ⟨by simpa [Digits] using decimal, by simp, by simp [digitsValue]⟩
    | further front decimal ih =>
      obtain ⟨digits, -, rfl⟩ := ih
      refine ⟨digits_append.mpr ⟨digits, by simpa [Digits] using decimal⟩, by simp, ?_⟩
      exact digitsValue_concat _ _
  · rintro ⟨digits, some, rfl⟩
    induction cs using List.reverseRecOn with
    | nil => exact absurd rfl some
    | append_singleton cs c ih =>
      obtain ⟨front, last⟩ := digits_append.mp digits
      have decimal : c.isDigit = true := last c List.mem_cons_self
      rw [digitsValue_concat]
      cases cs with
      | nil =>
        have none : 10 * digitsValue [] = 0 := rfl
        rw [none, Nat.zero_add]
        exact .digit decimal
      | cons d cs => exact .further (ih front (List.cons_ne_nil _ _)) decimal

/-! ### Reading -/

/-- A run of digits is read as a number when there is a digit. -/
theorem spells_run {run : List Char} {value : ℤ} (digits : Digits run)
    (read : (if run.isEmpty then none else some value) = some m) :
    SpellsNat run (digitsValue run) ∧ value = m := by
  split at read
  · cases read
  · next some =>
    refine ⟨spellsNat_iff.mpr ⟨digits, ?_, rfl⟩, Option.some.inj read⟩
    rintro rfl
    exact some rfl

theorem digits_takeWhile (cs : List Char) : Digits (cs.takeWhile Char.isDigit) :=
  fun _ member => List.mem_takeWhile_imp member

theorem signedDigits_minus (cs : List Char) : signedDigits ('-' :: cs) =
    ('-' :: cs.takeWhile Char.isDigit, if (cs.takeWhile Char.isDigit).isEmpty then none
      else some (-(digitsValue (cs.takeWhile Char.isDigit) : ℤ))) := rfl

theorem signedDigits_plus (cs : List Char) : signedDigits ('+' :: cs) =
    ('+' :: cs.takeWhile Char.isDigit, if (cs.takeWhile Char.isDigit).isEmpty then none
      else some (digitsValue (cs.takeWhile Char.isDigit) : ℤ)) := rfl

theorem signedDigits_unsigned (bare : ∀ c ∈ cs.head?, c ≠ '-' ∧ c ≠ '+') : signedDigits cs =
    (cs.takeWhile Char.isDigit, if (cs.takeWhile Char.isDigit).isEmpty then none
      else some (digitsValue (cs.takeWhile Char.isDigit) : ℤ)) := by
  cases cs with
  | nil => rfl
  | cons c cs => simp [signedDigits, bare c rfl]

/-- A front that is read as a number spells it. -/
theorem spells_of_signedDigits (read : signedDigits cs = (taken, some m)) :
    SpellsInt taken m ∧ taken <+: cs := by
  have unsigned (bare : ∀ c ∈ cs.head?, c ≠ '-' ∧ c ≠ '+') : SpellsInt taken m ∧ taken <+: cs := by
    rw [signedDigits_unsigned bare] at read
    obtain ⟨rfl, number⟩ := Prod.mk.inj read
    obtain ⟨spelled, rfl⟩ := spells_run (digits_takeWhile cs) number
    exact ⟨.unsigned spelled, List.takeWhile_prefix _⟩
  cases cs with
  | nil => exact unsigned (by simp)
  | cons c cs =>
    by_cases minus : c = '-'
    · subst minus
      rw [signedDigits_minus] at read
      obtain ⟨rfl, number⟩ := Prod.mk.inj read
      obtain ⟨spelled, rfl⟩ := spells_run (digits_takeWhile cs) number
      exact ⟨.minus spelled, List.cons_prefix_cons.mpr ⟨rfl, List.takeWhile_prefix _⟩⟩
    · by_cases plus : c = '+'
      · subst plus
        rw [signedDigits_plus] at read
        obtain ⟨rfl, number⟩ := Prod.mk.inj read
        obtain ⟨spelled, rfl⟩ := spells_run (digits_takeWhile cs) number
        exact ⟨.plus spelled, List.cons_prefix_cons.mpr ⟨rfl, List.takeWhile_prefix _⟩⟩
      · exact unsigned (by simp [minus, plus])

/-- A text that spells a number is read to its end. -/
theorem signedDigits_of_spells (spelled : SpellsInt cs m) : signedDigits cs = (cs, some m) := by
  cases spelled with
  | unsigned spelled =>
    obtain ⟨digits, some, rfl⟩ := spellsNat_iff.mp spelled
    have bare : ∀ c ∈ cs.head?, c ≠ '-' ∧ c ≠ '+' := fun c first =>
      not_sign_of_isDigit (digits c (List.mem_of_head? first))
    rw [signedDigits_unsigned bare, takeWhile_digits digits, if_neg (by simpa using some)]
  | plus spelled =>
    obtain ⟨digits, some, rfl⟩ := spellsNat_iff.mp spelled
    rw [signedDigits_plus, takeWhile_digits digits, if_neg (by simpa using some)]
  | minus spelled =>
    obtain ⟨digits, some, rfl⟩ := spellsNat_iff.mp spelled
    rw [signedDigits_minus, takeWhile_digits digits, if_neg (by simpa using some)]

/-- A text spells at most one number. -/
theorem spellsInt_unique {m' : ℤ} (one : SpellsInt cs m) (other : SpellsInt cs m') : m = m' := by
  have same := (signedDigits_of_spells one).symm.trans (signedDigits_of_spells other)
  simpa using same

end Text

/-! ### Decimals without a part behind the point -/

namespace Decimal

/-- A decimal is a whole number when its units fill that many ones, and is cut to that number. -/
theorem value_eq_int_iff (d : Decimal) (m : ℤ) :
    d.value = m ↔ d.isWhole = true ∧ d.whole = m := by
  have one : (Nat.pow 10 d.scale : ℤ) = 10 ^ d.scale := by
    exact_mod_cast rfl
  have positive : (10 : ℤ) ^ d.scale ≠ 0 := by positivity
  have filled : d.isWhole = true ↔ (10 : ℤ) ^ d.scale ∣ d.signedUnits := by
    rw [isWhole, beq_iff_eq, ← Nat.dvd_iff_mod_eq_zero, ← d.natAbs_signedUnits]
    rw [← Int.natCast_dvd, one]
  have reached := d.value_mul_eq_iff 0 m
  rw [pow_zero, pow_zero, mul_one, mul_one] at reached
  rw [reached, filled, whole, one]
  constructor
  · intro units
    rw [units]
    exact ⟨Int.dvd_mul_left _ _, Int.mul_tdiv_cancel _ positive⟩
  · rintro ⟨divides, rfl⟩
    exact (Int.tdiv_mul_cancel divides).symm

end Decimal

/-! ### Conversion -/

/-- The whole number that a value stands for, whatever a width may hold. -/
inductive Value.StandsFor : Value → ℤ → Prop where
  | int {k : IntKind} (n : Ranged k) : StandsFor (.int k (some n)) n.value
  | decimal {d : Decimal} {precision scale : ℕ} {m : ℤ} (whole : d.value = m) :
      StandsFor (.decimal (some d) precision scale) m
  | varchar {s : String} {m : ℤ} (spelled : Text.SpellsInt (Text.trim s).toList m) :
      StandsFor (.varchar (some s)) m
  | unknown {s : String} {m : ℤ} (spelled : Text.SpellsInt (Text.trim s).toList m) :
      StandsFor (.unknown (some s)) m

namespace Value

theorem standsFor_int_iff {k : IntKind} {n : Ranged k} {m : ℤ} :
    StandsFor (.int k (some n)) m ↔ n.value = m := by
  constructor
  · intro stands
    cases stands
    rfl
  · rintro rfl
    exact .int n

theorem standsFor_decimal_iff {d : Decimal} {precision scale : ℕ} {m : ℤ} :
    StandsFor (.decimal (some d) precision scale) m ↔ d.value = m := by
  constructor
  · intro stands
    cases stands with
    | decimal whole => exact whole
  · exact .decimal

theorem standsFor_varchar_iff {s : String} {m : ℤ} :
    StandsFor (.varchar (some s)) m ↔ Text.SpellsInt (Text.trim s).toList m := by
  constructor
  · intro stands
    cases stands with
    | varchar spelled => exact spelled
  · exact .varchar

theorem standsFor_unknown_iff {s : String} {m : ℤ} :
    StandsFor (.unknown (some s)) m ↔ Text.SpellsInt (Text.trim s).toList m := by
  constructor
  · intro stands
    cases stands with
    | unknown spelled => exact spelled
  · exact .unknown

/-- A value stands for at most one number. -/
theorem standsFor_unique {v : Value} {m m' : ℤ} (one : v.StandsFor m)
    (other : v.StandsFor m') : m = m' := by
  cases one with
  | int n => exact standsFor_int_iff.mp other
  | decimal whole => exact_mod_cast whole.symm.trans (standsFor_decimal_iff.mp other)
  | varchar spelled => exact Text.spellsInt_unique spelled (standsFor_varchar_iff.mp other)
  | unknown spelled => exact Text.spellsInt_unique spelled (standsFor_unknown_iff.mp other)

end Value

namespace Native

open NumberReader

variable {k : IntKind} {s rest : String} {n : Ranged k}

/-- What is taken from the front of a text spells the number that it is taken for. -/
theorem extractInt_ok (read : extractInt k s = .ok (n, rest)) :
    ∃ taken, Text.SpellsInt taken n.value ∧ s.toList = taken ++ rest.toList := by
  obtain ⟨taken, number, digits⟩ : ∃ taken number, signedDigits s.toList = (taken, number) :=
    ⟨_, _, rfl⟩
  rw [extractInt, digits] at read
  cases number with
  | none => cases read
  | some m =>
    obtain ⟨spelled, more, listed⟩ := Text.spells_of_signedDigits digits
    dsimp only at read
    split at read
    · cases read
    · next ranged =>
      cases read
      rw [Ranged.ofInt?_eq_some_iff.mp ranged]
      refine ⟨taken, spelled, ?_⟩
      rw [← listed, List.drop_left, String.toList_ofList]

/-- A text that spells a number of the width is taken for it as a whole. -/
theorem extractInt_spelled (spelled : Text.SpellsInt s.toList n.value) :
    extractInt k s = .ok (n, "") := by
  have ranged : Ranged.ofInt? k n.value = some n := Ranged.ofInt?_eq_some_iff.mpr rfl
  rw [extractInt, Text.signedDigits_of_spells spelled]
  simp [ranged]

/-- Exactly the texts that spell a number of the width are read as it. -/
theorem parse_int_iff : parse (int k) s = .ok n ↔ Text.SpellsInt s.toList n.value := by
  constructor
  · intro read
    obtain ⟨taken, spelled, listed⟩ := extractInt_ok (extract_of_parse (t := int k) (by simp) read)
    rw [String.toList_empty, List.append_nil] at listed
    rwa [listed]
  · intro spelled
    exact parse_ok (t := int k) (by simp) (extractInt_spelled spelled)

/-- A number becomes a member of the width when the width has it. -/
theorem ofValue_number {v : Value} {m : ℤ} (number : whole? (int k) v = .ok (.number m)) :
    (int k).ofValue v = .ok n ↔ n.value = m := by
  show intOfValue k v = .ok n ↔ _
  rw [← Ranged.ofInt?_eq_some_iff]
  simp only [intOfValue, number, bind, Except.bind]
  cases Ranged.ofInt? k m with
  | none => simp
  | some r => simp

/-- A text becomes the member that it spells. -/
theorem ofValue_text {v : Value} {text : String} (written : whole? (int k) v = .ok (.text text)) :
    (int k).ofValue v = .ok n ↔ Text.SpellsInt text.toList n.value := by
  rw [← parse_int_iff]
  show intOfValue k v = .ok n ↔ _
  simp only [intOfValue, written, bind, Except.bind]

/-- A value that is no number and no text to read is refused. -/
theorem ofValue_refused {v : Value} {fault : ConversionFault}
    (refused : whole? (int k) v = .error fault) : (int k).ofValue v ≠ .ok n := by
  show intOfValue k v ≠ .ok n
  simp [intOfValue, refused, bind, Except.bind]

/-- A value converts to a number of a width when it stands for it. -/
theorem ofValue_int_iff {v : Value} : (int k).ofValue v = .ok n ↔ v.StandsFor n.value := by
  have other {fault : ConversionFault} (refused : whole? (int k) v = .error fault)
      (nothing : ∀ m, ¬ v.StandsFor m) : (int k).ofValue v = .ok n ↔ v.StandsFor n.value :=
    iff_of_false (ofValue_refused refused) (nothing n.value)
  cases v with
  | int k' given =>
    cases given with
    | none => exact other rfl fun _ stands => by cases stands
    | some given =>
      rw [ofValue_number rfl, Value.standsFor_int_iff]
      exact eq_comm
  | decimal given precision scale =>
    cases given with
    | none => exact other rfl fun _ stands => by cases stands
    | some d =>
      have stands (m : ℤ) : Value.StandsFor (.decimal (some d) precision scale) m ↔
          d.isWhole = true ∧ d.whole = m :=
        Value.standsFor_decimal_iff.trans (d.value_eq_int_iff m)
      by_cases whole : d.isWhole = true
      · have number : whole? (int k) (.decimal (some d) precision scale) = .ok (.number d.whole) :=
          if_pos whole
        rw [ofValue_number number, stands, and_iff_right whole]
        exact eq_comm
      · have refused : whole? (int k) (.decimal (some d) precision scale) = .error (.notWhole d) :=
          if_neg whole
        exact other refused fun m number => whole ((stands m).mp number).1
  | varchar given =>
    cases given with
    | none => exact other rfl fun _ stands => by cases stands
    | some s =>
      rw [ofValue_text rfl, Value.standsFor_varchar_iff]
  | unknown given =>
    cases given with
    | none => exact other rfl fun _ stands => by cases stands
    | some s =>
      rw [ofValue_text rfl, Value.standsFor_unknown_iff]
  | _ => exact other rfl fun _ stands => by cases stands

/-- Conversion to a whole number of any width is exact for every value. It answers a number exactly
when the value stands for it, and refuses the value exactly when the value stands for no number or
for one that the width does not have. What a value stands for, it stands for alone. -/
theorem integers_convert_exactly (k : IntKind) (v : Value) :
    (∀ n : Ranged k, (int k).ofValue v = .ok n ↔ v.StandsFor n.value) ∧
    ((∃ fault, (int k).ofValue v = .error fault) ↔
      ∀ m, v.StandsFor m → m < k.least ∨ k.greatest < m) ∧
    ∀ m m', v.StandsFor m → v.StandsFor m' → m = m' := by
  refine ⟨fun n => ofValue_int_iff, ⟨?_, fun outside => ?_⟩, fun m m' => Value.standsFor_unique⟩
  · rintro ⟨fault, refused⟩ m stands
    by_contra inside
    have range : k.least ≤ m ∧ m ≤ k.greatest := by omega
    have read : (int k).ofValue v = .ok ⟨m, range⟩ := ofValue_int_iff.mpr stands
    rw [refused] at read
    cases read
  · cases read : (int k).ofValue v with
    | error fault => exact ⟨fault, rfl⟩
    | ok n =>
      have inside := n.inRange
      have out := outside n.value (ofValue_int_iff.mp read)
      omega

/-- Signs and zeros in front change nothing, also for a width without negative numbers. -/
example : (int .uint8).ofValue (.varchar (some " -000\n")) = .ok ⟨0, by decide⟩ ∧
    (int .uint8).ofValue (.unknown (some "+0000000255")) = .ok ⟨255, by decide⟩ := ⟨rfl, rfl⟩

end Native

end PreparedSql
