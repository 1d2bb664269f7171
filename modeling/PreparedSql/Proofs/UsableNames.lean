import Mathlib.Data.List.TakeDrop
import PreparedSql.Prepared.Vendor
import PreparedSql.Proofs.SealedLiterals
import PreparedSql.Proofs.StatementNames
import PreparedSql.Proofs.TemplateFilling

/-! Whether a name of a prepared statement can be used as it is. It is sent to the database without
quotes, so it has to be a word that every database takes for a name, and no longer than what the
database keeps of one: the pool knows a statement by its whole name. The front of the name is cut to
a length that leaves just enough room for the digits; but where the table begins with a digit, a
letter comes in front of what was cut already. -/
namespace PreparedSql

namespace Text

/-- Characters of which names are made. -/
def isNameChar (c : Char) : Bool :=
  c.isLower || c.isDigit || c == '_'

/-- A hexadecimal digit in lower case. -/
def isLowerHexDigit (c : Char) : Bool :=
  c.isDigit || 'a' ≤ c && c ≤ 'f'

/-- A name that needs no quotes. -/
def IsName : List Char → Prop
  | [] => False
  | c :: cs => (c.isLower || c == '_') = true ∧ ∀ d ∈ cs, isNameChar d = true

/-- The name that a server reads behind a keyword, as far as it has room for one. -/
def nameBehind? (room : Nat) (keyword text : String) : Option (List Char) :=
  if keyword.toList <+: text.toList then
    some (((text.toList.drop keyword.length).takeWhile isNameChar).take room)
  else none

variable {c : Char} {cs : List Char}

theorem toNat_lt_of_isNameChar (word : isNameChar c = true) : c.toNat < 128 := by
  rcases Bool.or_eq_true_iff.mp word with alphanum | underscore
  · refine toNat_lt_of_isAlphanum ?_
    rcases Bool.or_eq_true_iff.mp alphanum with lower | digit
    · exact Bool.or_eq_true_iff.mpr (.inl (Bool.or_eq_true_iff.mpr (.inr lower)))
    · exact Bool.or_eq_true_iff.mpr (.inr digit)
  · rw [eq_of_beq underscore]
    decide

theorem isNameChar_of_isLowerHexDigit (digit : isLowerHexDigit c = true) : isNameChar c = true := by
  rcases Bool.or_eq_true_iff.mp digit with digit | letter
  · simp [isNameChar, digit]
  · obtain ⟨_, last⟩ := Bool.and_eq_true_iff.mp letter
    have below : c.toNat < 128 := Nat.lt_of_le_of_lt (of_decide_eq_true last) (by decide)
    exact of_ascii (P := fun c => ('a' ≤ c && c ≤ 'f') = true → isNameChar c = true) (by decide)
      below letter

theorem isLowerHexDigit_of_mem_hexEncode {bytes : List UInt8}
    (member : c ∈ (hexEncode bytes).toList) : isLowerHexDigit c = true := by
  have small : ∀ d < 16, isLowerHexDigit (hexDigit d) = true := by decide
  rw [hexEncode, String.toList_ofList, List.mem_flatMap] at member
  obtain ⟨b, _, half⟩ := member
  simp only [hexByte, List.mem_cons, List.not_mem_nil, or_false] at half
  rcases half with rfl | rfl
  · exact small _ (Nat.div_lt_of_lt_mul b.toNat_lt)
  · exact small _ (Nat.mod_lt _ (by decide))

namespace IsName

theorem chars (name : IsName cs) : ∀ d ∈ cs, isNameChar d = true := by
  cases cs with
  | nil => exact name.elim
  | cons c cs =>
    obtain ⟨first, rest⟩ := name
    refine List.forall_mem_cons.mpr ⟨?_, rest⟩
    rcases Bool.or_eq_true_iff.mp first with lower | underscore
    · simp [isNameChar, lower]
    · simp [isNameChar, underscore]

/-- A name that goes on is a name. -/
theorem append (name : IsName cs) {ds : List Char} (rest : ∀ d ∈ ds, isNameChar d = true) :
    IsName (cs ++ ds) := by
  cases cs with
  | nil => exact name.elim
  | cons c cs => exact ⟨name.1, List.forall_mem_append.mpr ⟨name.2, rest⟩⟩

end IsName

/-- In plain characters a text has as many bytes as characters. -/
theorem utf8ByteSize_of_ascii {s : String} (ascii : ∀ c ∈ s.toList, c.toNat < 128) :
    s.utf8ByteSize = s.length := by
  rw [← byteCount_toList, ← String.length_toList]
  generalize s.toList = cs at ascii
  induction cs with
  | nil => rfl
  | cons c cs ih =>
    obtain ⟨first, rest⟩ := List.forall_mem_cons.mp ascii
    have one : c.utf8Size = 1 := Char.utf8Size_eq_one_iff.mpr (Nat.le_of_lt_succ first)
    rw [byteCount, one, ih rest, List.length_cons, Nat.add_comm]

/-- What is no part of a name ends it. -/
theorem nameBehind?_append (room : Nat) (keyword : String) {name rest : String}
    (word : ∀ c ∈ name.toList, isNameChar c = true)
    (outside : ∀ c, rest.toList.head? = some c → isNameChar c = false) :
    nameBehind? room keyword (keyword ++ (name ++ rest)) = some (name.toList.take room) := by
  have after : rest.toList.takeWhile isNameChar = [] := by
    cases following : rest.toList with
    | nil => rfl
    | cons c cs =>
      rw [following] at outside
      exact List.takeWhile_cons_of_neg (by simp [outside c rfl])
  have begins : keyword.toList <+: (keyword ++ (name ++ rest)).toList := by
    rw [String.toList_append]
    exact List.prefix_append _ _
  rw [nameBehind?, if_pos begins, String.toList_append, ← String.length_toList, List.drop_left,
    String.toList_append, List.takeWhile_append_of_pos word, after, List.append_nil]

end Text

/-! ### The front of a name -/

theorem isNameChar_nameChar (c : Char) : Text.isNameChar (nameChar c) = true := by
  unfold nameChar
  split
  · next alphanum =>
    exact Text.of_ascii (P := fun c => c.isAlphanum = true → Text.isNameChar c.toLower = true)
      (by decide) (Text.toNat_lt_of_isAlphanum alphanum) alphanum
  · decide

/-- Digits are kept, and nothing becomes one. -/
theorem isDigit_nameChar (c : Char) : (nameChar c).isDigit = c.isDigit := by
  unfold nameChar
  split
  · next alphanum =>
    exact Text.of_ascii (P := fun c => c.isAlphanum = true → c.toLower.isDigit = c.isDigit)
      (by decide) (Text.toNat_lt_of_isAlphanum alphanum) alphanum
  · next other =>
    cases digit : c.isDigit with
    | true => exact absurd (by simp [Char.isAlphanum, digit]) other
    | false => rfl

/-- The table is empty or begins with a digit, so that a letter is put in front. -/
def asksLetter (table : String) : Bool :=
  table.toList.head?.all Char.isDigit

theorem asksLetter_iff {table : String} (filled : 0 < table.length) :
    asksLetter table = true ↔ ∃ c ∈ table.toList.head?, c.isDigit = true := by
  rw [← String.length_toList] at filled
  unfold asksLetter
  cases chars : table.toList with
  | nil =>
    rw [chars] at filled
    exact absurd filled (Nat.lt_irrefl 0)
  | cons c cs => simp

/-- The table is cut to its length before the letter comes in front. -/
theorem tableChars_eq (table : String) :
    tableChars table = (if asksLetter table then ['s'] else []) ++
      (table.toList.map nameChar).take keptTableChars := by
  unfold tableChars asksLetter
  cases table.toList with
  | nil => rfl
  | cons c cs =>
    cases digit : c.isDigit <;>
      simp [keptTableChars, List.take_succ_cons, isDigit_nameChar, digit]

theorem length_tableChars (table : String) :
    (tableChars table).length = min 38 table.length + if asksLetter table then 1 else 0 := by
  rw [tableChars_eq, List.length_append, List.length_take, List.length_map, String.length_toList,
    Nat.add_comm, keptTableChars]
  cases asksLetter table <;> rfl

theorem isName_tableChars (table : String) : Text.IsName (tableChars table) := by
  have kept : ∀ c ∈ (table.toList.map nameChar).take keptTableChars,
      Text.isNameChar c = true := by
    intro c member
    obtain ⟨d, _, rfl⟩ := List.mem_map.mp (List.mem_of_mem_take member)
    exact isNameChar_nameChar d
  rw [tableChars_eq]
  cases asked : asksLetter table with
  | true => exact ⟨rfl, kept⟩
  | false =>
    unfold asksLetter at asked
    cases chars : table.toList with
    | nil =>
      rw [chars] at asked
      cases asked
    | cons c cs =>
      rw [chars] at kept asked
      have plain : (nameChar c).isDigit = false := (isDigit_nameChar c).trans asked
      obtain ⟨first, rest⟩ := List.forall_mem_cons.mp kept
      refine ⟨?_, rest⟩
      rwa [Text.isNameChar, plain, Bool.or_false] at first

namespace Prepared

/-- A name is the front of the table and the digits of the body. -/
theorem toList_statementName (table body : String) :
    (statementName table body).toList = tableChars table ++ '_' :: bodyDigits body := by
  simp [statementName, bodyDigits]

theorem isName_statementName (table body : String) :
    Text.IsName (statementName table body).toList := by
  rw [toList_statementName]
  refine (isName_tableChars table).append (List.forall_mem_cons.mpr ⟨rfl, ?_⟩)
  intro d member
  exact Text.isNameChar_of_isLowerHexDigit
    (Text.isLowerHexDigit_of_mem_hexEncode (List.mem_of_mem_take member))

theorem isNameChar_statementName (table body : String) :
    ∀ c ∈ (statementName table body).toList, Text.isNameChar c = true :=
  Text.IsName.chars (isName_statementName table body)

theorem ascii_statementName (table body : String) :
    ∀ c ∈ (statementName table body).toList, c.toNat < 128 := by
  intro c member
  exact Text.toNat_lt_of_isNameChar (isNameChar_statementName table body c member)

theorem utf8ByteSize_statementName (table body : String) :
    (statementName table body).utf8ByteSize =
      min 38 table.length + 25 + if asksLetter table then 1 else 0 := by
  rw [Text.utf8ByteSize_of_ascii (ascii_statementName table body), ← String.length_toList,
    toList_statementName, List.length_append, length_tableChars, List.length_cons,
    length_bodyDigits, keptDigits]
  omega

/-- The statements that prepare and execute are understood to speak of the same name. -/
theorem nameBehind?_statements (v : Vendor) (room : Nat) (table body text : String)
    (types : List FieldType) (literals : List String) :
    Text.nameBehind? room "PREPARE " (v.prepare (statementName table body) types text) =
        some ((statementName table body).toList.take room) ∧
      Text.nameBehind? room "EXECUTE " (v.execute (statementName table body) literals) =
        some ((statementName table body).toList.take room) := by
  have read (keyword rest : String) (c : Char) (begins : rest.toList.head? = some c)
      (outside : Text.isNameChar c = false) :
      Text.nameBehind? room keyword (keyword ++ (statementName table body ++ rest)) =
        some ((statementName table body).toList.take room) := by
    refine Text.nameBehind?_append room keyword (isNameChar_statementName table body) ?_
    rw [begins]
    rintro _ ⟨⟩
    exact outside
  constructor
  · cases v with
    | postgres =>
      simp only [Vendor.prepare, String.append_assoc]
      refine read _ _ ' ' ?_ (by decide)
      split <;> simp
    | mysql =>
      simp only [Vendor.prepare, String.append_assoc]
      exact read _ _ ' ' (by simp) (by decide)
  · simp only [Vendor.execute, String.append_assoc]
    cases literals with
    | nil => cases v <;> exact read _ _ ';' rfl (by decide)
    | cons a rest =>
      cases v with
      | postgres => exact read _ _ '(' (by simp) (by decide)
      | mysql => exact read _ _ ' ' (by simp) (by decide)

/-- A name is made of lower case letters, digits and underscores and does not begin with a digit. It
ends with the digits of the body, and is no longer than 64 bytes: no longer than 63 unless a digit
begins a table of which only a front is kept. The statements that prepare and execute speak of one
name; with room for some bytes of a name, a server keeps the name whole exactly when it has no more
of them. -/
theorem names_usable (table body : String) :
    Text.IsName (statementName table body).toList ∧
      (∀ c ∈ (statementName table body).toList, c.toNat < 128) ∧
      (∃ front digits, (statementName table body).toList = front ++ '_' :: digits ∧
        digits.length = 24 ∧ ∀ d ∈ digits, Text.isLowerHexDigit d = true) ∧
      (statementName table body).utf8ByteSize ≤ 64 ∧
      ((statementName table body).utf8ByteSize ≤ 63 ↔
        ¬ (38 ≤ table.length ∧ ∃ c ∈ table.toList.head?, c.isDigit = true)) ∧
      ∀ (v : Vendor) (room : Nat) (text : String) (types : List FieldType)
        (literals : List String), ∃ word,
        Text.nameBehind? room "PREPARE " (v.prepare (statementName table body) types text) =
            some word ∧
          Text.nameBehind? room "EXECUTE " (v.execute (statementName table body) literals) =
            some word ∧
          (word = (statementName table body).toList ↔
            (statementName table body).utf8ByteSize ≤ room) := by
  have size := utf8ByteSize_statementName table body
  have ascii := ascii_statementName table body
  refine ⟨isName_statementName table body, ascii,
    ⟨_, _, toList_statementName table body, length_bodyDigits body, ?_⟩, ?_, ?_, ?_⟩
  · intro d member
    exact Text.isLowerHexDigit_of_mem_hexEncode (List.mem_of_mem_take member)
  · rw [size]
    split <;> omega
  · rw [size]
    by_cases long : 38 ≤ table.length
    · rw [← asksLetter_iff (Nat.lt_of_lt_of_le (by decide) long), Nat.min_eq_left long]
      cases asksLetter table <;> simp [long]
    · split <;> omega
  · intro v room text types literals
    obtain ⟨prepared, executed⟩ := nameBehind?_statements v room table body text types literals
    refine ⟨_, prepared, executed, ?_⟩
    rw [List.take_eq_self_iff, String.length_toList, Text.utf8ByteSize_of_ascii ascii]

/-- A name of 64 bytes: the table has 38 digits. -/
theorem name_of_digits_exceeds :
    63 < (statementName (String.ofList (List.replicate 38 '1')) "SELECT 1").utf8ByteSize := by
  rw [utf8ByteSize_statementName, String.length_ofList]
  decide

end Prepared

end PreparedSql
