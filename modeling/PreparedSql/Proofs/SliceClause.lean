import Std.Data.String.ToNat
import PreparedSql.Proofs.ListedTexts

/-! The clause at the end of a statement that leaves some of its rows, and the
window that a server reads in it. -/
namespace PreparedSql

/-- What a limit and an offset leave of some rows. -/
structure Window where
  limit : Option Nat := none
  offset : Nat := 0

namespace Window

/-- The rows behind the offset, up to the limit. -/
def select {α : Type} (w : Window) (rows : List α) : List α :=
  match w.limit with
  | none => rows.drop w.offset
  | some limit => (rows.drop w.offset).take limit

/-- The words of a text between blanks, the first beginning with `front`. -/
def words (front : List Char) : List Char → List String
  | [] => flush front
  | c :: cs => if c.isWhitespace then flush front ++ words [] cs else words (front ++ [c]) cs
where
  flush (front : List Char) : List String :=
    if front.isEmpty then [] else [String.ofList front]

def ofWords? : List String → Option Window
  | [] => some {}
  | ["OFFSET", offset] => do return { offset := ← offset.toNat? }
  | ["LIMIT", limit] => do return { limit := ← limit.toNat? }
  | ["LIMIT", limit, "OFFSET", offset] => do
    return { limit := ← limit.toNat?, offset := ← offset.toNat? }
  | _ => none

/-- The window that a server reads in the clause at the end of a statement. -/
def read? (clause : String) : Option Window :=
  ofWords? (words [] clause.toList)

private theorem words_append {word : List Char} (front rest : List Char)
    (solid : ∀ c ∈ word, c.isWhitespace = false) :
    words front (word ++ rest) = words (front ++ word) rest := by
  induction word generalizing front with
  | nil => simp
  | cons c cs ih =>
    have tail := ih (front ++ [c]) fun c member => solid c (List.mem_cons_of_mem _ member)
    rw [List.cons_append, words, solid c List.mem_cons_self]
    simpa using tail

/-- A blank, a word, and what a blank sets apart from the word. -/
private theorem words_cons {blank : Char} {word : String} {rest : List Char}
    (apart : blank.isWhitespace) (nonempty : word ≠ "")
    (solid : ∀ c ∈ word.toList, c.isWhitespace = false)
    (ended : ∀ c ∈ rest.head?, c.isWhitespace) :
    words [] (blank :: (word.toList ++ rest)) = word :: words [] rest := by
  rw [words, if_pos apart, words_append [] rest solid]
  cases rest with
  | nil => simp [words, words.flush, nonempty]
  | cons c cs => simp [words, words.flush, nonempty, ended c rfl]

private theorem solid_number (n : Nat) : ∀ c ∈ (toString n).toList, c.isWhitespace = false := by
  intro c member
  have digit := Text.isDigit_of_mem_toString member
  cases blank : c.isWhitespace with
  | false => rfl
  | true =>
    simp only [Char.isWhitespace, Bool.or_eq_true, decide_eq_true_eq] at blank
    rcases blank with ((rfl | rfl) | rfl) | rfl <;> exact absurd digit (by decide)

/-- A word and a number behind it. -/
private theorem words_numbered {blank : Char} {word : String} (n : Nat) {rest : List Char}
    (apart : blank.isWhitespace) (nonempty : word ≠ "")
    (solid : ∀ c ∈ word.toList, c.isWhitespace = false)
    (ended : ∀ c ∈ rest.head?, c.isWhitespace) :
    words [] (blank :: (word.toList ++ ' ' :: ((toString n).toList ++ rest))) =
      word :: toString n :: words [] rest := by
  rw [words_cons apart nonempty solid (by simp)]
  rw [words_cons (by decide) (by simp) (solid_number n) ended]

theorem read?_whole : read? "" = some {} := rfl

theorem read?_offset (n : Nat) : read? ("\nOFFSET " ++ toString n) = some { offset := n } := by
  have text : ("\nOFFSET " ++ toString n).toList =
      '\n' :: ("OFFSET".toList ++ ' ' :: ((toString n).toList ++ [])) := by
    rw [String.toList_append, List.append_nil]
    rfl
  rw [read?, text, words_numbered n (by decide) (by decide) (by simp) (by simp)]
  simp [words, words.flush, ofWords?]

theorem read?_limit (n : Nat) : read? ("\nLIMIT " ++ toString n) = some { limit := some n } := by
  have text : ("\nLIMIT " ++ toString n).toList =
      '\n' :: ("LIMIT".toList ++ ' ' :: ((toString n).toList ++ [])) := by
    rw [String.toList_append, List.append_nil]
    rfl
  rw [read?, text, words_numbered n (by decide) (by decide) (by simp) (by simp)]
  simp [words, words.flush, ofWords?]

/-- The offset may follow the limit on the same line. -/
theorem read?_limit_offset (blank : Char) (apart : blank.isWhitespace) (limit offset : Nat) :
    read? ("\nLIMIT " ++ toString limit ++ (String.singleton blank ++ "OFFSET ") ++
      toString offset) = some { limit := some limit, offset := offset } := by
  have text : ("\nLIMIT " ++ toString limit ++ (String.singleton blank ++ "OFFSET ") ++
        toString offset).toList =
      '\n' :: ("LIMIT".toList ++ ' ' :: ((toString limit).toList ++
        blank :: ("OFFSET".toList ++ ' ' :: ((toString offset).toList ++ [])))) := by
    simp only [String.toList_append, List.append_nil, List.append_assoc]
    simp
  rw [read?, text, words_numbered limit (by decide) (by decide) (by simp) (by simpa using apart)]
  rw [words_numbered offset apart (by decide) (by simp) (by simp)]
  simp [words, words.flush, ofWords?]

end Window

end PreparedSql
