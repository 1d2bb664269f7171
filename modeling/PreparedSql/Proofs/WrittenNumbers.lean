import Mathlib.Algebra.Group.Nat.Defs
import Mathlib.Data.List.TakeWhile
import PreparedSql.Number.Reader
import PreparedSql.Proofs.SealedLiterals
import PreparedSql.Text.Basic

/-! Numbers and bytes read back from the digits they are written with: naturals in a field of fixed
width, whole numbers behind their sign, bytes in pairs of hexadecimal digits. None of these texts
begins or ends with a blank, so that trimming them changes nothing. -/
namespace PreparedSql

namespace Text

variable {cs ds rest : List Char} {c : Char}

/-! ### Decimal digits -/

/-- Digits and nothing else. -/
def Digits (cs : List Char) : Prop :=
  ∀ c ∈ cs, c.isDigit = true

theorem digits_append : Digits (cs ++ ds) ↔ Digits cs ∧ Digits ds :=
  List.forall_mem_append

theorem digits_toDigits (n : Nat) : Digits (Nat.toDigits 10 n) :=
  fun _ member => Nat.isDigit_of_mem_toDigits (by decide) (by decide) member

theorem digits_zeros (n : Nat) : Digits (List.replicate n '0') := by
  intro c member
  rw [List.eq_of_mem_replicate member]
  decide

theorem digits_padded (width n : Nat) : Digits (padded width n).toList := by
  rw [padded, String.toList_ofList]
  exact digits_append.mpr ⟨digits_zeros _, digits_toDigits n⟩

/-- Digits behind others count as much less as there are of them. -/
theorem digitsValue_append (cs ds : List Char) :
    digitsValue (cs ++ ds) = 10 ^ ds.length * digitsValue cs + digitsValue ds := by
  show Nat.ofDigitChars 10 (cs ++ ds) 0 = _
  rw [Nat.ofDigitChars_append, Nat.ofDigitChars_eq_ofDigitChars_zero]
  rfl

theorem digitsValue_zeros (n : Nat) : digitsValue (List.replicate n '0') = 0 := by
  show Nat.ofDigitChars 10 (List.replicate n '0') 0 = 0
  rw [Nat.ofDigitChars_replicate_zero, Nat.mul_zero]

theorem digitsValue_toDigits (n : Nat) : digitsValue (Nat.toDigits 10 n) = n :=
  Nat.ofDigitChars_toDigits (by decide) (by decide)

theorem digitsValue_padded (width n : Nat) : digitsValue (padded width n).toList = n := by
  rw [padded, String.toList_ofList, digitsValue_append, digitsValue_zeros, digitsValue_toDigits,
    Nat.mul_zero, Nat.zero_add]

/-- A number takes the width of its field, or as many characters as it has digits. -/
theorem length_padded (width n : Nat) :
    (padded width n).toList.length = max width (Nat.toDigits 10 n).length := by
  rw [padded, String.toList_ofList, List.length_append, List.length_replicate]
  omega

theorem length_padded_of_lt {width n : Nat} (wide : 0 < width) (small : n < 10 ^ width) :
    (padded width n).toList.length = width := by
  have fits := (Nat.length_toDigits_le_iff (b := 10) (by decide) wide).mpr small
  rw [length_padded]
  omega

theorem padded_ne_nil (width n : Nat) : (padded width n).toList ≠ [] := by
  have filled := Nat.length_toDigits_pos (b := 10) (n := n)
  have counted := length_padded width n
  intro nothing
  rw [nothing, List.length_nil] at counted
  omega

/-- The sign takes the first character of the field. -/
theorem toList_paddedInt_of_neg {n : Int} (width : Nat) (negative : n < 0) :
    (paddedInt width n).toList = '-' :: (padded (width - 1) n.natAbs).toList := by
  rw [paddedInt, if_pos negative, String.toList_append]
  rfl

/-- The run of such characters ends where another one follows. -/
theorem takeWhile_run {p : Char → Bool} (run : ∀ c ∈ cs, p c = true)
    (ends : ∀ c ∈ rest.head?, p c = false) : (cs ++ rest).takeWhile p = cs := by
  rw [List.takeWhile_append_of_pos run]
  cases rest with
  | nil => simp
  | cons c rest => simp [ends c rfl]

/-- Behind the run stands what does not belong to it. -/
theorem dropWhile_run {p : Char → Bool} (run : ∀ c ∈ cs, p c = true)
    (ends : ∀ c ∈ rest.head?, p c = false) : (cs ++ rest).dropWhile p = rest := by
  have whole := List.takeWhile_append_dropWhile (p := p) (l := cs ++ rest)
  rw [takeWhile_run run ends] at whole
  exact List.append_cancel_left whole

theorem takeWhile_digits (digits : Digits cs) : cs.takeWhile Char.isDigit = cs :=
  List.takeWhile_eq_self_iff.mpr digits

theorem not_sign_of_isDigit (digit : c.isDigit = true) : c ≠ '-' ∧ c ≠ '+' := by
  constructor <;> (rintro rfl; revert digit; decide)

/-! ### Whole numbers -/

/-- Digits without a sign, at least one. -/
theorem signedDigits_nat (n : Nat) :
    NumberReader.signedDigits (Nat.toDigits 10 n) = (Nat.toDigits 10 n, some (n : Int)) := by
  have digits := digits_toDigits n
  have value := digitsValue_toDigits n
  cases listed : Nat.toDigits 10 n with
  | nil => exact absurd listed Nat.toDigits_ne_nil
  | cons c cs =>
    rw [listed] at digits value
    obtain ⟨minus, plus⟩ := not_sign_of_isDigit (digits c List.mem_cons_self)
    simp [NumberReader.signedDigits, minus, plus, takeWhile_digits digits, value]

/-- A whole number is read back from its text, and the text is read to its end. -/
theorem signedDigits_toString (n : Int) :
    NumberReader.signedDigits (toString n).toList = ((toString n).toList, some n) := by
  cases n with
  | ofNat n =>
    have written : (toString (Int.ofNat n)).toList = Nat.toDigits 10 n := by
      show (toString n).toList = _
      rw [Nat.toString_eq_ofList_toDigits, String.toList_ofList]
    rw [written]
    exact signedDigits_nat n
  | negSucc n =>
    have written : (toString (Int.negSucc n)).toList = '-' :: Nat.toDigits 10 (n + 1) := by
      have signed : toString (Int.negSucc n) = "-" ++ toString (n + 1) := rfl
      rw [signed, Nat.toString_eq_ofList_toDigits]
      simp
    have filled : (Nat.toDigits 10 (n + 1)).isEmpty = false := by
      rw [List.isEmpty_eq_false_iff]
      exact Nat.toDigits_ne_nil
    rw [written]
    simp [NumberReader.signedDigits, takeWhile_digits (digits_toDigits _), digitsValue_toDigits,
      filled, Int.negSucc_eq]

/-! ### Hexadecimal digits -/

theorem hexValue?_hexDigit {n : Nat} (small : n < 16) : hexValue? (hexDigit n) = some n := by
  have each : ∀ d < 16, hexValue? (hexDigit d) = some d := by decide
  exact each n small

/-- Every byte is read back from its two digits. -/
theorem hexDecodeChars_flatMap (bytes : List UInt8) :
    hexDecodeChars (bytes.flatMap hexByte) = some bytes := by
  induction bytes with
  | nil => rfl
  | cons b bytes ih =>
    have below : b.toNat < 256 := b.toNat_lt
    have halves : UInt8.ofNat (16 * (b.toNat / 16) + b.toNat % 16) = b := by
      rw [Nat.div_add_mod, UInt8.ofNat_toNat]
    have high := hexValue?_hexDigit (n := b.toNat / 16) (by omega)
    have low := hexValue?_hexDigit (n := b.toNat % 16) (by omega)
    rw [List.flatMap_cons, hexByte, List.cons_append, List.singleton_append, hexDecodeChars, high,
      low, ih]
    exact congrArg (fun b => some (b :: bytes)) halves

theorem isHexDigit_of_hexByte {b : UInt8} (member : c ∈ hexByte b) : isHexDigit c = true := by
  have below : b.toNat < 256 := b.toNat_lt
  have digit {n : Nat} (small : n < 16) : isHexDigit (hexDigit n) = true := by
    rw [isHexDigit, hexValue?_hexDigit small]
    rfl
  simp only [hexByte, List.mem_cons, List.not_mem_nil, or_false] at member
  rcases member with rfl | rfl
  · exact digit (by omega)
  · exact digit (by omega)

theorem takeWhile_hexBytes (bytes : List UInt8) :
    (bytes.flatMap hexByte).takeWhile isHexDigit = bytes.flatMap hexByte := by
  rw [List.takeWhile_eq_self_iff]
  intro c member
  obtain ⟨b, _, inside⟩ := List.mem_flatMap.mp member
  exact isHexDigit_of_hexByte inside

/-! ### Trimming -/

theorem not_isBlank_of_isBare (bare : isBare c = true) : isBlank c = false := by
  have below : c.toNat < 128 := by
    simp only [isBare, Bool.or_eq_true, beq_iff_eq] at bare
    rcases bare with (((alphanum | rfl) | rfl) | rfl) | rfl
    · exact toNat_lt_of_isAlphanum alphanum
    all_goals decide
  exact of_ascii (P := fun c => isBare c = true → isBlank c = false) (by decide) below bare

/-- A text that begins and ends with characters other than blanks has nothing to trim. -/
theorem trim_of_solid {s : String} (first : ∀ c ∈ s.toList.head?, isBlank c = false)
    (last : ∀ c ∈ s.toList.getLast?, isBlank c = false) : trim s = s := by
  have kept {cs : List Char} (solid : ∀ c ∈ cs.head?, isBlank c = false) :
      cs.dropWhile isBlank = cs := by
    cases cs with
    | nil => rfl
    | cons c cs => exact List.dropWhile_cons_of_neg (by simp [solid c rfl])
  have start : trimStart s = s := by
    rw [trimStart, kept first, String.ofList_toList]
  rw [trim, start, trimEnd, trimEndChars, kept, List.reverse_reverse, String.ofList_toList]
  rwa [List.head?_reverse]

/-- A text that begins and ends with characters of a word has nothing to trim. -/
theorem trim_eq {s : String} (first : ∀ c ∈ s.toList.head?, isBare c = true)
    (last : ∀ c ∈ s.toList.getLast?, isBare c = true) : trim s = s :=
  trim_of_solid (fun c member => not_isBlank_of_isBare (first c member))
    fun c member => not_isBlank_of_isBare (last c member)

theorem trim_of_bare {s : String} (bare : Bare s.toList) : trim s = s :=
  trim_eq (fun c first => bare c (List.mem_of_head? first))
    fun c last => bare c (List.mem_of_getLast? last)

/-- Blanks in the middle of a text stay. -/
theorem trim_of_bare_ends {s : String} {front middle back : List Char}
    (written : s.toList = front ++ (middle ++ back)) (begins : Bare front) (ends : Bare back)
    (begun : front ≠ []) (ended : back ≠ []) : trim s = s := by
  refine trim_eq (fun c first => ?_) fun c last => ?_
  · rw [written, List.head?_append, Option.or_of_isSome (List.isSome_head?.mpr begun)] at first
    exact begins c (List.mem_of_head? first)
  · rw [written, ← List.append_assoc, List.getLast?_append,
      Option.or_of_isSome (List.getLast?_isSome.mpr ended)] at last
    exact ends c (List.mem_of_getLast? last)

end Text

end PreparedSql
