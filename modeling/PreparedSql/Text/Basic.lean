/-! Texts: characters in tables of code points, blanks and the trimming of texts,
cuts, whole numbers in fields of a width, quoting by doubling, and long texts
inside messages. -/
namespace PreparedSql.Text

/-- The code point lies in one of the inclusive ranges. -/
def inRanges (ranges : Array (Nat × Nat)) (c : Char) : Bool :=
  ranges.any fun range => range.1 ≤ c.toNat && c.toNat ≤ range.2

/-! ### Blanks -/

/-- A character with the Unicode property White_Space. -/
def isBlank (c : Char) : Bool :=
  let n := c.toNat
  (9 ≤ n && n ≤ 13) || n == 0x20 || n == 0x85 || n == 0xA0 || n == 0x1680
    || (0x2000 ≤ n && n ≤ 0x200A) || n == 0x2028 || n == 0x2029 || n == 0x202F
    || n == 0x205F || n == 0x3000

/-- Drops the blanks a text begins with. -/
def trimStart (s : String) : String :=
  String.ofList (s.toList.dropWhile isBlank)

/-- Drops the blanks a list of characters ends with. -/
def trimEndChars (cs : List Char) : List Char :=
  (cs.reverse.dropWhile isBlank).reverse

/-- Drops the blanks a text ends with. -/
def trimEnd (s : String) : String :=
  String.ofList (trimEndChars s.toList)

/-- Drops the blanks at both ends. -/
def trim (s : String) : String :=
  trimEnd (trimStart s)

/-! ### Cuts

A text is cut at the first character that fails a test, or at a number of bytes
of its UTF-8 form. A cut in bytes exists only between characters. -/

/-- The longest beginning whose characters all pass the test, and the rest. -/
def spanWhile (test : Char → Bool) (s : String) : String × String :=
  (String.ofList (s.toList.takeWhile test), String.ofList (s.toList.dropWhile test))

/-- The text begins with the other. -/
def beginsWith (front s : String) : Bool :=
  front.toList.isPrefixOf s.toList

/-- The first characters that make up exactly `n` bytes, and the rest; nothing
when `n` falls inside a character or behind the end. -/
def splitBytes? : Nat → List Char → Option (List Char × List Char)
  | 0, cs => some ([], cs)
  | _ + 1, [] => none
  | n + 1, c :: cs =>
    if c.utf8Size ≤ n + 1 then
      (splitBytes? (n + 1 - c.utf8Size) cs).map fun (taken, rest) => (c :: taken, rest)
    else none

/-- The most characters from the front that fit in `n` bytes. -/
def takeBytes : Nat → List Char → List Char
  | _, [] => []
  | n, c :: cs => if c.utf8Size ≤ n then c :: takeBytes (n - c.utf8Size) cs else []

/-- The bytes that a list of characters takes. -/
def byteCount : List Char → Nat
  | [] => 0
  | c :: cs => c.utf8Size + byteCount cs

theorem takeBytes_fits (n : Nat) (cs : List Char) : byteCount (takeBytes n cs) ≤ n := by
  induction cs generalizing n with
  | nil => simp [takeBytes, byteCount]
  | cons c cs ih =>
    unfold takeBytes
    split
    next fits =>
      have rest := ih (n - c.utf8Size)
      simp only [byteCount] at rest ⊢
      omega
    next => simp [byteCount]

theorem takeBytes_prefix (n : Nat) (cs : List Char) : (takeBytes n cs).IsPrefix cs := by
  induction cs generalizing n with
  | nil => simp [takeBytes]
  | cons c cs ih =>
    unfold takeBytes
    split
    next fits =>
      obtain ⟨rest, joined⟩ := ih (n - c.utf8Size)
      exact ⟨rest, by simp [joined]⟩
    next => exact List.nil_prefix

theorem splitBytes?_append {n : Nat} {cs taken rest : List Char}
    (split : splitBytes? n cs = some (taken, rest)) : taken ++ rest = cs ∧ byteCount taken = n := by
  fun_induction splitBytes? n cs generalizing taken rest with
  | case1 cs => simp_all [byteCount]
  | case2 => simp at split
  | case3 n c cs fits ih =>
    simp only [Option.map_eq_some_iff, Prod.exists] at split
    obtain ⟨left, right, found, same⟩ := split
    obtain ⟨joined, size⟩ := ih found
    obtain ⟨rfl, rfl⟩ := Prod.mk.inj same
    refine ⟨by simp [joined], ?_⟩
    simp only [byteCount] at size ⊢
    omega
  | case4 => simp at split

/-! ### Numbers in fields of a width -/

/-- The digits of a number, with zeros before them up to `width` characters. -/
def padded (width : Nat) (n : Nat) : String :=
  let digits := Nat.toDigits 10 n
  String.ofList (List.replicate (width - digits.length) '0' ++ digits)

/-- Zeros go between the sign and the digits; the sign takes part of the width. -/
def paddedInt (width : Nat) (n : Int) : String :=
  if n < 0 then "-" ++ padded (width - 1) n.natAbs else padded width n.natAbs

/-- The value of a decimal digit. -/
def digitValue? (c : Char) : Option Nat :=
  if c.isDigit then some (c.toNat - '0'.toNat) else none

/-- The number that a run of decimal digits stands for. -/
def digitsValue (digits : List Char) : Nat :=
  digits.foldl (fun n c => 10 * n + (c.toNat - '0'.toNat)) 0

/-! ### Quoting by doubling

The mark that closes a text is written twice inside it. -/

/-- Writes `replacement` for every `mark` and every other character as it is. -/
def replaceChar (mark : Char) (replacement : String) (s : String) : String :=
  String.ofList (s.toList.flatMap fun c => if c = mark then replacement.toList else [c])

/-- The text between two marks, a mark inside it written twice. -/
def enclosed (mark : Char) (s : String) : String :=
  let side := String.singleton mark
  side ++ replaceChar mark (side ++ side) s ++ side

/-- Every mark within a text between marks is doubled. -/
theorem toList_enclosed (mark : Char) (s : String) : (enclosed mark s).toList =
    mark :: ((s.toList.flatMap fun c => if c = mark then [mark, mark] else [c]) ++ [mark]) := by
  simp [enclosed, replaceChar]

/-! ### Texts inside messages

A text of at most 497 bytes is shown whole, a longer one is cut between two
characters and marked, so that neither takes more than 500 bytes. -/

/-- Bytes of a text that a message shows. -/
def shownBytes : Nat := 497

/-- The text as a message shows it, without the blanks at its end. -/
def truncated (s : String) : String :=
  if s.utf8ByteSize ≤ shownBytes then trimEnd s
  else String.ofList (trimEndChars (takeBytes shownBytes s.toList)) ++ "..."

/-- Goes back from a number of bytes, one at a time, to where a character begins or the text ends.
Nothing is found when the search passes the front of the text. -/
def searchBack? (s : String) : Nat → Option Nat
  | 0 => if String.Pos.Raw.isValid s ⟨0⟩ then some 0 else none
  | n + 1 => if String.Pos.Raw.isValid s ⟨n + 1⟩ then some (n + 1) else searchBack? s n

end PreparedSql.Text
