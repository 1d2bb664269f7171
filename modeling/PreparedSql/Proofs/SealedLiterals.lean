import PreparedSql.Proofs.ListedTexts
import PreparedSql.Proofs.QuotedScanning
import PreparedSql.Proofs.WritableLiterals

/-! Literals and the quoting of each flavor. Outside of quotes a literal of one value holds letters,
digits, signs and points only, and whatever a text holds is written so that the literal ends with
its last quote and no sooner. So no mark that separates literals ever stands bare in one. -/
namespace PreparedSql

namespace Text

/-- A character that literals hold outside of quotes. -/
def isBare (c : Char) : Bool :=
  c.isAlphanum || c == '+' || c == '-' || c == '.' || c == '_'

/-- Such characters only. -/
def Bare (cs : List Char) : Prop :=
  ∀ c ∈ cs, isBare c = true

/-- Characters that stand for themselves within quotes. -/
def Quotable (cs : List Char) : Prop :=
  ∀ c ∈ cs, c ≠ '\'' ∧ c ≠ '\\'

instance (cs : List Char) : Decidable (Bare cs) :=
  List.decidableBAll _ cs

instance (cs : List Char) : Decidable (Quotable cs) :=
  List.decidableBAll _ cs

variable {cs ds : List Char} {c : Char}

theorem bare_append : Bare (cs ++ ds) ↔ Bare cs ∧ Bare ds :=
  List.forall_mem_append

theorem bare_cons : Bare (c :: cs) ↔ isBare c = true ∧ Bare cs :=
  List.forall_mem_cons

theorem quotable_append : Quotable (cs ++ ds) ↔ Quotable cs ∧ Quotable ds :=
  List.forall_mem_append

theorem quotable_of_bare (bare : Bare cs) : Quotable cs := by
  intro c member
  have isBare := bare c member
  constructor <;> (rintro rfl; revert isBare; decide)

theorem bare_ite {p : Prop} [Decidable p] (left : Bare cs) (right : Bare ds) :
    Bare (if p then cs else ds) := by
  split
  · exact left
  · exact right

theorem bare_ite_text {p : Prop} [Decidable p] {s t : String} (left : Bare s.toList)
    (right : Bare t.toList) : Bare (if p then s else t).toList := by
  split
  · exact left
  · exact right

theorem bare_take (n : Nat) (bare : Bare cs) : Bare (cs.take n) :=
  fun c member => bare c (List.mem_of_mem_take member)

theorem bare_drop (n : Nat) (bare : Bare cs) : Bare (cs.drop n) :=
  fun c member => bare c (List.mem_of_mem_drop member)

/-- Letters and digits lie among the first 128 characters. -/
theorem toNat_lt_of_isAlphanum (alphanum : c.isAlphanum = true) : c.toNat < 128 := by
  rcases Bool.or_eq_true_iff.mp alphanum with letter | digit
  · rcases Bool.or_eq_true_iff.mp letter with upper | lower
    · have last : c.toNat ≤ 'Z'.toNat := (of_decide_eq_true upper).2
      exact Nat.lt_of_le_of_lt last (by decide)
    · have last : c.toNat ≤ 'z'.toNat := of_decide_eq_true (Bool.and_eq_true_iff.mp lower).2
      exact Nat.lt_of_le_of_lt last (by decide)
  · exact Nat.lt_of_le_of_lt (Char.isDigit_iff_toNat.mp digit).2 (by decide)

/-- What holds of each of the first 128 characters holds of a character among them. -/
theorem of_ascii {P : Char → Prop} (each : ∀ n < 128, P (Char.ofNat n)) (ascii : c.toNat < 128) :
    P c := by
  have known := each c.toNat ascii
  rwa [Char.ofNat_toNat] at known

/-! ### Digits -/

theorem bare_zeros (n : Nat) : Bare (List.replicate n '0') := by
  intro c member
  rw [List.eq_of_mem_replicate member]
  decide

theorem isBare_of_isDigit (digit : c.isDigit = true) : isBare c = true := by
  simp [isBare, Char.isAlphanum, digit]

/-- The digits of a number, also in hexadecimal. -/
theorem bare_toDigits {base : Nat} (two : 1 < base) (known : base ≤ 16) (n : Nat) :
    Bare (Nat.toDigits base n) := by
  have digit : ∀ d < 16, isBare (Nat.digitChar d) = true := by decide
  induction n using Nat.strongRecOn with
  | ind n ih =>
    rw [Nat.toDigits_eq_if two]
    split
    · next small =>
      exact bare_cons.mpr ⟨digit n (Nat.lt_of_lt_of_le small known), by decide⟩
    · next large =>
      have lower : n / base < n := Nat.div_lt_self (by omega) two
      have last : n % base < base := Nat.mod_lt n (by omega)
      exact bare_append.mpr
        ⟨ih _ lower, bare_cons.mpr ⟨digit _ (Nat.lt_of_lt_of_le last known), by decide⟩⟩

theorem bare_padded (width n : Nat) : Bare (padded width n).toList := by
  rw [padded, String.toList_ofList]
  exact bare_append.mpr ⟨bare_zeros _, bare_toDigits (by decide) (by decide) n⟩

theorem bare_paddedInt (width : Nat) (n : Int) : Bare (paddedInt width n).toList := by
  refine bare_ite_text ?_ (bare_padded _ _)
  rw [String.toList_append]
  exact bare_append.mpr ⟨by decide, bare_padded _ _⟩

theorem bare_nat (n : Nat) : Bare (toString n).toList :=
  fun _ member => isBare_of_isDigit (isDigit_of_mem_toString member)

theorem bare_int (n : Int) : Bare (toString n).toList := by
  cases n with
  | ofNat n => exact bare_nat n
  | negSucc n =>
    have written : toString (Int.negSucc n) = "-" ++ toString (n + 1) := rfl
    rw [written, String.toList_append]
    exact bare_append.mpr ⟨by decide, bare_nat (n + 1)⟩

/-- Both digits of a byte are letters and digits, in either case. -/
theorem bare_hexByte (b : UInt8) :
    Bare (hexByte b) ∧ Bare ((hexByte b).map Char.toUpper) := by
  have digit : ∀ d < 16, isBare (hexDigit d) = true ∧ isBare (hexDigit d).toUpper = true := by
    decide
  have high := digit (b.toNat / 16) (Nat.div_lt_of_lt_mul b.toNat_lt)
  have low := digit (b.toNat % 16) (Nat.mod_lt _ (by decide))
  have nothing : Bare [] := by decide
  exact ⟨bare_cons.mpr ⟨high.1, bare_cons.mpr ⟨low.1, nothing⟩⟩,
    bare_cons.mpr ⟨high.2, bare_cons.mpr ⟨low.2, nothing⟩⟩⟩

theorem bare_hexEncode (bytes : List UInt8) : Bare (hexEncode bytes).toList := by
  rw [hexEncode, String.toList_ofList]
  intro c member
  obtain ⟨b, _, inside⟩ := List.mem_flatMap.mp member
  exact (bare_hexByte b).1 c inside

theorem bare_hexEncodeUpper (bytes : List UInt8) : Bare (hexEncodeUpper bytes).toList := by
  rw [hexEncodeUpper, String.toList_ofList, List.map_flatMap]
  intro c member
  obtain ⟨b, _, inside⟩ := List.mem_flatMap.mp member
  exact (bare_hexByte b).2 c inside

end Text

open Text

/-! ### Texts of values -/

theorem Decimal.bare_toText (d : Decimal) : Bare d.toText.toList := by
  have digits := bare_padded (d.scale + 1) d.units
  rw [toText, String.toList_append, String.toList_ofList, bare_append]
  refine ⟨bare_ite_text (by decide) (by decide), bare_ite digits ?_⟩
  exact bare_append.mpr ⟨bare_take _ digits, bare_cons.mpr ⟨by decide, bare_drop _ digits⟩⟩

namespace FloatLayout

variable {digits : List Char}

theorem bare_positionalText (fraction : Bool) (bare : Bare digits) (k : Int) :
    Bare (positionalText fraction digits k) := by
  have fractional : Bare (if fraction = true then ['.', '0'] else []) :=
    bare_ite (by decide) (by decide)
  refine bare_ite ?_ (bare_ite ?_ ?_)
  · exact bare_append.mpr ⟨bare_append.mpr ⟨by decide, bare_zeros _⟩, bare⟩
  · exact bare_append.mpr ⟨bare_append.mpr ⟨bare, bare_zeros _⟩, fractional⟩
  · exact bare_append.mpr ⟨bare_take _ bare, bare_cons.mpr ⟨by decide, bare_drop _ bare⟩⟩

theorem bare_exponentText (bare : Bare digits) (k : Int) : Bare (exponentText digits k) := by
  refine bare_append.mpr ⟨?_, bare_cons.mpr ⟨by decide, bare_int (k - 1)⟩⟩
  match digits, bare with
  | [], bare => exact bare
  | [_], bare => exact bare
  | _ :: _ :: _, bare =>
    obtain ⟨first, others⟩ := bare_cons.mp bare
    exact bare_cons.mpr ⟨first, bare_cons.mpr ⟨by decide, others⟩⟩

theorem bare_magnitudeText (layout : FloatLayout) (f : BinaryFormat) (rank : Nat) :
    Bare (layout.magnitudeText f rank) := by
  have digits (n : Nat) : Bare (Nat.toDigits 10 n) := bare_toDigits (by decide) (by decide) n
  refine bare_ite (bare_ite (by decide) (by decide)) ?_
  dsimp only
  split
  · exact bare_positionalText _ (digits _) _
  · exact bare_ite (bare_positionalText _ (digits _) _) (bare_exponentText (digits _) _)

end FloatLayout

theorem bare_fractionText (nanosecond : Nat) : Bare (fractionText nanosecond).toList := by
  refine bare_ite_text (by decide) ?_
  rw [String.toList_ofList]
  intro c member
  have shown := (List.dropWhile_sublist _).subset (List.mem_reverse.mp member)
  exact bare_padded 9 nanosecond c (List.mem_reverse.mp shown)

theorem Date.bare_sqlText (d : Date) : Bare d.sqlText.toList := by
  have hyphen : Bare "-".toList := by decide
  simp only [Date.sqlText, String.toList_append, bare_append]
  exact ⟨⟨⟨⟨bare_paddedInt _ _, hyphen⟩, bare_padded _ _⟩, hyphen⟩, bare_padded _ _⟩

theorem TimeOfDay.quotable_sqlText (t : TimeOfDay) : Quotable t.sqlText.toList := by
  have field (n : Nat) := quotable_of_bare (bare_padded 2 n)
  have fraction := quotable_of_bare (bare_fractionText t.nanosecond)
  have colon : Quotable ":".toList := by decide
  have point : Quotable ".".toList := by decide
  simp only [TimeOfDay.sqlText, String.toList_append, quotable_append]
  exact ⟨⟨⟨⟨⟨⟨field _, colon⟩, field _⟩, colon⟩, field _⟩, point⟩, fraction⟩

theorem Moment.quotable_sqlText (m : Moment) : Quotable m.sqlText.toList := by
  have blank : Quotable " ".toList := by decide
  simp only [Moment.sqlText, String.toList_append, quotable_append]
  exact ⟨⟨quotable_of_bare m.date.bare_sqlText, blank⟩, m.time.quotable_sqlText⟩

theorem Uuid.bare_grouped (groups : List Nat) {digits : List Char} (bare : Bare digits) :
    Bare (grouped groups digits) := by
  induction groups, digits using grouped.induct with
  | case1 => exact fun c none => by cases none
  | case2 n digits => exact bare_take n bare
  | case3 n rest digits more ih =>
    rw [grouped.eq_3 digits n rest more, bare_append]
    exact ⟨bare_take n bare, bare_cons.mpr ⟨by decide, ih (bare_drop n bare)⟩⟩

theorem Uuid.bare_toText (u : Uuid) : Bare u.toText.toList := by
  rw [toText, String.toList_ofList]
  refine bare_grouped groups (bare_append.mpr ⟨bare_zeros _, ?_⟩)
  exact bare_toDigits (by decide) (by decide) u.value

/-! ### Literals -/

namespace Flavor

/-- How the server that takes the flavor reads literals. -/
def quoting : Flavor → Quoting
  | generic | postgres => .standard
  | mysql => .escaping

variable {f : Flavor} {q : Quoting} {mark : Char → Bool} {cs : List Char} {s : String}

/-- What holds no marks hides them. -/
theorem hides_bare (separates : ∀ c, isBare c = true → mark c = false) (bare : Bare cs) :
    q.Hides mark cs := by
  have plain : ∀ c ∈ cs, c ≠ '\'' ∧ mark c = false := fun c member =>
    ⟨(quotable_of_bare bare c member).1, separates c (bare c member)⟩
  simpa using Quoting.hides_text plain Quoting.hides_nil

theorem toList_single (s : String) : (single s).toList = '\'' :: (s.toList ++ ['\'']) := by
  simp [single]

theorem hides_single (quotable : Quotable s.toList) : q.Hides mark (single s).toList := by
  rw [toList_single]
  exact Quoting.hides_literal (Quoting.shut_text quotable)

/-- A text hides whatever it holds, be it quotes or backslashes. -/
theorem hides_string (f : Flavor) (s : String) : f.quoting.Hides mark (f.string s).toList := by
  have doubled : Quoting.standard.Hides mark (Text.enclosed '\'' s).toList := by
    rw [Text.toList_enclosed]
    refine Quoting.hides_literal (Quoting.shut_flatMap fun c _ => ?_)
    split
    · exact Quoting.shut_quotes
    · next bare => exact Quoting.shut_singleton bare (.inl rfl)
  cases f with
  | generic | postgres => exact doubled
  | mysql =>
    show Quoting.escaping.Hides mark (single (String.ofList (s.toList.flatMap mysqlChar))).toList
    rw [toList_single, String.toList_ofList]
    refine Quoting.hides_literal (Quoting.shut_flatMap fun c _ => ?_)
    unfold mysqlChar
    split
    · exact Quoting.shut_quotes
    · next bare =>
      split
      · exact Quoting.shut_escape '\\'
      · next plain =>
        split
        · exact Quoting.shut_escape '0'
        · exact Quoting.shut_singleton bare (.inr plain)

theorem hides_blob (unmarked : mark 'X' = false) (f : Flavor) (bytes : List UInt8) :
    f.quoting.Hides mark (f.blob bytes).toList := by
  have upper (q : Quoting) : q.Hides mark ("X" ++ single (Text.hexEncodeUpper bytes)).toList := by
    rw [String.toList_append]
    exact Quoting.hides_cons (by decide) unmarked
      (hides_single (quotable_of_bare (bare_hexEncodeUpper bytes)))
  cases f with
  | generic | mysql => exact upper _
  | postgres =>
    -- A backslash stands for itself here.
    show Quoting.standard.Hides mark (single ("\\x" ++ Text.hexEncode bytes)).toList
    rw [toList_single, String.toList_append]
    have digits := Quoting.shut_text (q := .standard) (quotable_of_bare (bare_hexEncode bytes))
    have lead : Quoting.standard.Shut (['\\'] ++ ['x']) :=
      Quoting.shut_append (Quoting.shut_singleton (by decide) (.inl rfl))
        (Quoting.shut_singleton (by decide) (.inl rfl))
    exact Quoting.hides_literal (Quoting.shut_append lead digits)

theorem hides_infinity (separates : ∀ c, isBare c = true → mark c = false) (f : Flavor)
    (negative : Bool) : q.Hides mark (f.infinity negative).toList := by
  have word (s : String) (quotable : Quotable s.toList) : q.Hides mark (single s).toList :=
    hides_single quotable
  cases f with
  | generic | postgres =>
    cases negative with
    | true => exact word "-Infinity" (by decide)
    | false => exact word "Infinity" (by decide)
  | mysql =>
    cases negative with
    | true => exact hides_bare separates (by decide)
    | false => exact hides_bare separates (by decide)

theorem hides_number (separates : ∀ c, isBare c = true → mark c = false) (f : Flavor)
    (layout : FloatLayout) {format : BinaryFormat} (x : Binary format) :
    q.Hides mark (f.number layout x).toList := by
  cases x with
  | nan => exact hides_single (s := "NaN") (by decide)
  | number negative rank bounded =>
    unfold number
    rw [if_neg (by simp [Binary.isNan])]
    split
    · exact hides_infinity separates f _
    · next finite =>
      have below : rank ≠ format.infinity := by simpa [Binary.isInfinite] using finite
      refine hides_bare separates ?_
      rw [FloatLayout.text, if_neg below, String.toList_append, String.toList_ofList, bare_append]
      exact ⟨bare_ite_text (by decide) (by decide), layout.bare_magnitudeText format rank⟩

end Flavor

/-- The value is a list with its items. -/
def Value.hasItems : Value → Bool
  | list (some _) _ => true
  | _ => false

/-- The literal of a value without items hides every mark that is not bare. -/
theorem Flavor.hides_literal {mark : Char → Bool}
    (separates : ∀ c, isBare c = true → mark c = false) (f : Flavor) {v : Value} {text : String}
    (alone : v.hasItems = false) (written : f.literal v = .ok text) :
    f.quoting.Hides mark text.toList := by
  cases spells_of_literal written with
  | boolean b => cases b <;> exact hides_bare separates (by decide)
  | int n => exact hides_bare separates (bare_int n.value)
  | single x => exact hides_number separates f _ x
  | double x => exact hides_number separates f _ x
  | decimal d => exact hides_bare separates d.bare_toText
  | varchar s | unknown s => exact hides_string f s
  | blob bytes => exact hides_blob (separates 'X' (by decide)) f bytes
  | date d => exact hides_single (quotable_of_bare d.bare_sqlText)
  | time t => exact hides_single t.quotable_sqlText
  | timestamp m | zoned _ m => exact hides_single m.quotable_sqlText
  | uuid u => exact hides_single (quotable_of_bare u.bare_toText)
  | list => cases alone
  | null => exact hides_bare separates (by decide)

end PreparedSql
