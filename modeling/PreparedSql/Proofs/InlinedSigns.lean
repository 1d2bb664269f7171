import PreparedSql.Expr.Writing
import PreparedSql.Proofs.CommentScanning
import PreparedSql.Proofs.TemplateFilling
import PreparedSql.Proofs.WrittenNumbers

/-! Signs that come into a statement with its literals. Parentheses are decided before a literal is
in its place, so a minus sign in front of an operand without parentheses meets whatever sign the
operand begins with. That is the only way in which an expression opens a comment: all other
operators, lists and cases keep their operands apart by words or spaces. -/
namespace PreparedSql

/-! ### Numbers -/

namespace Text

/-- Digits and points. -/
def Numeral (cs : List Char) : Prop :=
  ∀ c ∈ cs, c.isDigit = true ∨ c = '.'

instance (cs : List Char) : Decidable (Numeral cs) :=
  List.decidableBAll _ cs

variable {cs ds : List Char}

theorem numeral_append : Numeral (cs ++ ds) ↔ Numeral cs ∧ Numeral ds :=
  List.forall_mem_append

theorem numeral_of_digits (digits : Digits cs) : Numeral cs :=
  fun c member => .inl (digits c member)

/-- A point anywhere among digits. -/
theorem numeral_pointed (digits : Digits cs) (n : Nat) :
    Numeral (cs.take n ++ '.' :: cs.drop n) := by
  intro c member
  rcases List.mem_append.mp member with front | behind
  · exact .inl (digits c (List.mem_of_mem_take front))
  · rcases List.mem_cons.mp behind with point | back
    · exact .inr point
    · exact .inl (digits c (List.mem_of_mem_drop back))

end Text

open Text

theorem FloatLayout.numeral_positionalText (fraction : Bool) {digits : List Char}
    (known : Digits digits) (k : Int) : Numeral (positionalText fraction digits k) := by
  have zeros (n : Nat) : Numeral (List.replicate n '0') := numeral_of_digits (digits_zeros n)
  have given := numeral_of_digits known
  unfold positionalText
  dsimp only
  by_cases below : k ≤ 0
  · rw [if_pos below]
    exact numeral_append.mpr ⟨numeral_append.mpr ⟨by decide, zeros _⟩, given⟩
  · rw [if_neg below]
    by_cases whole : digits.length ≤ k.toNat
    · rw [if_pos whole]
      refine numeral_append.mpr ⟨numeral_append.mpr ⟨given, zeros _⟩, ?_⟩
      split <;> decide
    · rw [if_neg whole]
      exact numeral_pointed known _

namespace Flavor

variable {f : Flavor} {cs : List Char}

theorem scans_numeral (numeral : Numeral cs) : f.Scans cs false false := by
  have plain : ∀ c ∈ cs, c ≠ '\'' ∧ f.marksSign c = false := by
    intro c member
    rcases numeral c member with digit | point
    · have bare := isBare_of_isDigit digit
      have unsigned := (not_sign_of_isDigit digit).1
      have unmarked : c ≠ f.nameMark := by
        rintro rfl
        revert bare
        cases f <;> decide
      have unquoted : c ≠ '\'' := by
        rintro rfl
        revert bare
        decide
      exact ⟨unquoted, by simp [marksSign, unsigned, unmarked]⟩
    · subst point
      cases f <;> decide
  refine scans_hides (by simpa using Quoting.hides_text plain Quoting.hides_nil) ?_
  cases cs with
  | nil => simp
  | cons c cs =>
    have unsigned := (plain c List.mem_cons_self).2
    simp only [marksSign, Bool.or_eq_false_iff, decide_eq_false_iff_not] at unsigned
    simpa using unsigned.2

theorem scans_int (n : Int) : f.Scans (toString n).toList (n < 0) false := by
  have digits (n : Nat) : Digits (toString n).toList := fun _ => isDigit_of_mem_toString
  cases n with
  | ofNat n =>
    have positive : decide (Int.ofNat n < 0) = false := by simp
    rw [positive]
    exact scans_numeral (numeral_of_digits (digits n))
  | negSucc n =>
    have written : toString (Int.negSucc n) = "-" ++ toString (n + 1) := rfl
    have negative : decide (Int.negSucc n < 0) = true := by simp [Int.negSucc_lt_zero]
    rw [written, String.toList_append, negative]
    exact scans_minus (scans_numeral (numeral_of_digits (digits (n + 1))))

theorem scans_decimal (d : Decimal) : f.Scans d.toText.toList d.negative false := by
  rw [Decimal.toText, String.toList_append, String.toList_ofList]
  refine scans_signed d.negative (scans_numeral ?_)
  have digits := digits_padded (d.scale + 1) d.units
  split
  · exact numeral_of_digits digits
  · exact numeral_pointed digits _

/-- The sign of an exponent stands behind its letter. -/
theorem scans_exponentText {digits : List Char} (known : Digits digits) (k : Int) :
    f.Scans (FloatLayout.exponentText digits k) false false := by
  have mantissa : ∃ point, FloatLayout.exponentText digits k =
      point ++ (['e'] ++ (toString (k - 1)).toList) ∧ Numeral point := by
    refine ⟨_, rfl, ?_⟩
    match digits, known with
    | [], _ => decide
    | [_], known => exact numeral_of_digits known
    | d :: d' :: rest, known => exact numeral_pointed known 1
  obtain ⟨point, written, numeral⟩ := mantissa
  rw [written]
  exact scans_join (scans_numeral numeral) (by cases f <;> decide) (scans_int _)

theorem scans_magnitudeText (layout : FloatLayout) (format : BinaryFormat) (rank : Nat) :
    f.Scans (layout.magnitudeText format rank) false false := by
  have digits (n : Nat) := digits_toDigits n
  unfold FloatLayout.magnitudeText
  split
  · exact scans_numeral (by split <;> decide)
  · dsimp only
    split
    · exact scans_numeral (FloatLayout.numeral_positionalText _ (digits _) _)
    · split
      · exact scans_numeral (FloatLayout.numeral_positionalText _ (digits _) _)
      · exact scans_exponentText (digits _) _

/-- The number is written with a minus sign; only MySQL writes infinity without quotes. -/
def signsNumber (f : Flavor) {format : BinaryFormat} (x : Binary format) : Bool :=
  x.isNegative && (!x.isInfinite || f = .mysql)

theorem scans_number (layout : FloatLayout) {format : BinaryFormat} (x : Binary format) :
    f.Scans (f.number layout x).toList (f.signsNumber x) false := by
  cases x with
  | nan =>
    have word : f.Parts "'NaN'".toList := by cases f <;> decide
    exact scans_parts word
  | number negative rank bounded =>
    unfold number
    rw [if_neg (by simp [Binary.isNan])]
    by_cases infinite : rank = format.infinity
    · have word : f.Scans (f.infinity negative).toList (negative && f = .mysql) false := by
        cases f <;> cases negative <;> exact ⟨by decide, by decide, by decide⟩
      simpa [Binary.isInfinite, Binary.isNegative, signsNumber, infinite] using word
    · have finite : (rank == format.infinity) = false := by simpa using infinite
      have magnitude := scans_signed negative (f.scans_magnitudeText layout format rank)
      rw [if_neg (by simp [Binary.isInfinite, finite]), FloatLayout.text, if_neg infinite,
        String.toList_append, String.toList_ofList]
      simpa [Binary.isInfinite, Binary.isNegative, signsNumber, finite] using magnitude

/-! ### Literals -/

/-- The literal begins with a minus sign. -/
def signs (f : Flavor) : Value → Bool
  | .int _ (some n) => n.value < 0
  | .single (some x) => f.signsNumber x
  | .double (some x) => f.signsNumber x
  | .decimal (some d) _ _ => d.negative
  | _ => false

theorem scans_single {s : String} (quotable : Quotable s.toList) :
    f.Scans (single s).toList false false :=
  scans_hides (hides_single quotable) (by simp [toList_single])

theorem scans_string (s : String) : f.Scans (f.string s).toList false false := by
  refine scans_hides (hides_string f s) ?_
  cases f with
  | generic | postgres => simp [string, toList_enclosed]
  | mysql => simp [string, toList_single]

theorem scans_blob (bytes : List UInt8) : f.Scans (f.blob bytes).toList false false := by
  refine scans_hides (hides_blob (by cases f <;> decide) f bytes) ?_
  cases f <;> simp [blob, single]

/-- The literal of one value opens no comment by itself. -/
theorem scans_literal {v : Value} {text : String} (alone : v.hasItems = false)
    (written : f.literal v = .ok text) : f.Scans text.toList (f.signs v) false := by
  have word (s : String) (parts : f.Parts s.toList) : f.Scans s.toList false false :=
    scans_parts parts
  cases spells_of_literal written with
  | boolean b => cases b <;> exact word _ (by cases f <;> decide)
  | int n => exact scans_int n.value
  | single x => exact scans_number _ x
  | double x => exact scans_number _ x
  | decimal d => exact scans_decimal d
  | varchar s | unknown s => exact scans_string s
  | blob bytes => exact scans_blob bytes
  | date d => exact scans_single (quotable_of_bare d.bare_sqlText)
  | time t => exact scans_single t.quotable_sqlText
  | timestamp m | zoned _ m => exact scans_single m.quotable_sqlText
  | uuid u => exact scans_single (quotable_of_bare u.bare_toText)
  | list => cases alone
  | null missing =>
    have unsigned : f.signs v = false := by
      unfold signs
      split
      · cases missing
      · cases missing
      · cases missing
      · cases missing
      · rfl
    rw [unsigned]
    exact word _ (by cases f <;> decide)

end Flavor

end PreparedSql
