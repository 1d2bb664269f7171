import Mathlib.Data.List.Infix
import PreparedSql.Expr.Writing
import PreparedSql.Library.Author
import PreparedSql.Proofs.OpenedComments
import PreparedSql.Proofs.QuotedReading

/-! Looking for a text in a text. The text that is looked for is put between wildcards, and the
database asks whether the other text is like the pattern that comes of it. Nothing takes their
meaning from wildcards that the text brings along, so it is a pattern itself: what is found is some
text that is like it. Whatever holds the text is found, then, and nothing else is as long as there
is no wildcard in it. -/
namespace PreparedSql

/-! ### Patterns -/

namespace Text

/-- A character that a pattern does not take for itself. -/
def isWildcard (c : Char) : Bool :=
  c == '%' || c == '_'

/-- A text is like a pattern: `%` stands for any characters and `_` for any one. -/
def likes : List Char → List Char → Bool
  | [], cs => cs.isEmpty
  | '%' :: pattern, cs => cs.tails.any (likes pattern)
  | _ :: _, [] => false
  | p :: pattern, c :: cs => (p == '_' || p == c) && likes pattern cs

variable {ps qs cs : List Char}

theorem likes_any :
    likes ('%' :: ps) cs = true ↔ ∃ front rest, cs = front ++ rest ∧ likes ps rest = true := by
  rw [likes, List.any_eq_true]
  constructor
  · rintro ⟨rest, tail, like⟩
    obtain ⟨front, rfl⟩ := (List.mem_tails rest cs).mp tail
    exact ⟨front, rest, rfl, like⟩
  · rintro ⟨front, rest, rfl, like⟩
    exact ⟨rest, (List.mem_tails rest _).mpr (List.suffix_append front rest), like⟩

theorem likes_one {p : Char} (one : p ≠ '%') :
    likes (p :: ps) cs = true ↔
      ∃ c rest, cs = c :: rest ∧ (p = '_' ∨ p = c) ∧ likes ps rest = true := by
  cases cs with
  | nil => simp [likes]
  | cons c rest => simp [likes]

/-- Patterns one behind the other are for texts one behind the other. -/
theorem likes_append :
    likes (ps ++ qs) cs = true ↔
      ∃ front rest, cs = front ++ rest ∧ likes ps front = true ∧ likes qs rest = true := by
  induction ps generalizing cs with
  | nil => simp [likes]
  | cons p ps ih =>
    rw [List.cons_append]
    by_cases any : p = '%'
    · rw [any, likes_any]
      constructor
      · rintro ⟨skipped, _, rfl, like⟩
        obtain ⟨front, rest, rfl, first, second⟩ := ih.mp like
        exact ⟨skipped ++ front, rest, by simp, likes_any.mpr ⟨skipped, front, rfl, first⟩, second⟩
      · rintro ⟨_, rest, rfl, first, second⟩
        obtain ⟨skipped, front, rfl, like⟩ := likes_any.mp first
        exact ⟨skipped, front ++ rest, by simp, ih.mpr ⟨front, rest, rfl, like, second⟩⟩
    · rw [likes_one any]
      constructor
      · rintro ⟨c, _, rfl, meets, like⟩
        obtain ⟨front, rest, rfl, first, second⟩ := ih.mp like
        exact ⟨c :: front, rest, rfl, (likes_one any).mpr ⟨c, front, rfl, meets, first⟩, second⟩
      · rintro ⟨_, rest, rfl, first, second⟩
        obtain ⟨c, front, rfl, meets, like⟩ := (likes_one any).mp first
        exact ⟨c, front ++ rest, rfl, meets, ih.mpr ⟨front, rest, rfl, like, second⟩⟩

theorem likes_anything : likes ['%'] cs = true :=
  likes_any.mpr ⟨cs, [], (List.append_nil cs).symm, rfl⟩

/-- Whatever stands in the places of its wildcards, one character for each, a text is like the
pattern that it was. -/
theorem likes_filled {g : Char → Char} (kept : ∀ c, isWildcard c = false → g c = c)
    (ps : List Char) : likes ps (ps.map g) = true := by
  induction ps with
  | nil => rfl
  | cons p ps ih =>
    rw [List.map_cons]
    by_cases any : p = '%'
    · rw [any]
      exact likes_any.mpr ⟨[g '%'], ps.map g, rfl, ih⟩
    · refine (likes_one any).mpr ⟨g p, ps.map g, rfl, ?_, ih⟩
      by_cases one : p = '_'
      · exact .inl one
      · exact .inr (kept p (by simp [isWildcard, any, one])).symm

/-- A text is like itself. -/
theorem likes_self (cs : List Char) : likes cs cs = true := by
  have like := likes_filled (g := id) (fun _ _ => rfl) cs
  rwa [List.map_id] at like

/-- A pattern without wildcards is for one text. -/
theorem likes_plain (plain : ∀ c ∈ ps, isWildcard c = false) :
    likes ps cs = true ↔ cs = ps := by
  induction ps generalizing cs with
  | nil => simp [likes]
  | cons p ps ih =>
    obtain ⟨first, rest⟩ := List.forall_mem_cons.mp plain
    obtain ⟨any, one⟩ : p ≠ '%' ∧ p ≠ '_' := by simpa [isWildcard] using first
    rw [likes_one any]
    constructor
    · rintro ⟨c, cs, rfl, meets, like⟩
      rw [← meets.resolve_left one, (ih rest).mp like]
    · rintro rfl
      exact ⟨p, ps, rfl, .inr rfl, likes_self ps⟩

/-- A character for each wildcard. -/
def spelled (c : Char) : Char :=
  if isWildcard c then 'a' else c

theorem spelled_of_plain (c : Char) (plain : isWildcard c = false) : spelled c = c := by
  rw [spelled, plain, if_neg Bool.false_ne_true]

theorem isWildcard_spelled (c : Char) : isWildcard (spelled c) = false := by
  unfold spelled
  split
  · rfl
  · next plain => exact Bool.eq_false_iff.mpr plain

/-- Where in a text another one is looked for. -/
inductive Place where
  | anywhere | front | back
  deriving DecidableEq

namespace Place

/-- The text is in the place. -/
def Holds (sought cs : List Char) : Place → Prop
  | anywhere => sought <:+: cs
  | front => sought <+: cs
  | back => sought <:+ cs

/-- The text between the wildcards that leave it its place. -/
def pattern (sought : List Char) : Place → List Char
  | anywhere => '%' :: (sought ++ ['%'])
  | front => sought ++ ['%']
  | back => '%' :: sought

variable {place : Place} {sought : List Char}

theorem mem_of_holds (holds : place.Holds sought cs) : ∀ c ∈ sought, c ∈ cs := by
  intro c member
  cases place with
  | anywhere => exact List.IsInfix.mem member holds
  | front => exact List.IsPrefix.mem member holds
  | back => exact List.IsSuffix.mem member holds

theorem holds_self (place : Place) (cs : List Char) : place.Holds cs cs := by
  cases place with
  | anywhere => exact List.infix_refl cs
  | front => exact List.prefix_refl cs
  | back => exact List.suffix_refl cs

/-- In front of what is sought nothing is asked, or nothing stands there; so behind it. -/
theorem likes_pattern (place : Place) :
    likes (place.pattern sought) cs = true ↔ ∃ t, likes sought t = true ∧ place.Holds t cs := by
  have ending {cs : List Char} : likes (sought ++ ['%']) cs = true ↔
      ∃ t, likes sought t = true ∧ t <+: cs := by
    rw [likes_append]
    constructor
    · rintro ⟨t, rest, rfl, like, _⟩
      exact ⟨t, like, List.prefix_append t rest⟩
    · rintro ⟨t, like, rest, rfl⟩
      exact ⟨t, rest, rfl, like, likes_anything⟩
  cases place with
  | front => exact ending
  | back =>
    rw [pattern, likes_any]
    constructor
    · rintro ⟨front, t, rfl, like⟩
      exact ⟨t, like, List.suffix_append front t⟩
    · rintro ⟨t, like, front, rfl⟩
      exact ⟨front, t, rfl, like⟩
  | anywhere =>
    rw [pattern, likes_any]
    constructor
    · rintro ⟨front, rest, rfl, like⟩
      obtain ⟨t, inner, behind, rfl⟩ := ending.mp like
      exact ⟨t, inner, front, behind, by simp⟩
    · rintro ⟨t, inner, front, behind, rfl⟩
      exact ⟨front, t ++ behind, by simp, ending.mpr ⟨t, inner, behind, rfl⟩⟩

/-- What is in the place is found there. -/
theorem likes_of_holds (holds : place.Holds sought cs) : likes (place.pattern sought) cs = true :=
  place.likes_pattern.mpr ⟨sought, likes_self sought, holds⟩

/-- The pattern finds what is in the place and nothing else, for texts without wildcards and for no
others. -/
theorem finds_iff (place : Place) :
    (∀ cs, likes (place.pattern sought) cs = true ↔ place.Holds sought cs) ↔
      ∀ c ∈ sought, isWildcard c = false := by
  constructor
  · intro exact_ c member
    -- The text with letters for its wildcards is found, so the wildcards are in it.
    have like := likes_filled spelled_of_plain sought
    have found := (exact_ (sought.map spelled)).mp
      (place.likes_pattern.mpr ⟨_, like, place.holds_self _⟩)
    obtain ⟨d, _, same⟩ := List.mem_map.mp (mem_of_holds found c member)
    rw [← same]
    exact isWildcard_spelled d
  · intro plain cs
    rw [likes_pattern]
    constructor
    · rintro ⟨t, like, holds⟩
      rwa [(likes_plain plain).mp like] at holds
    · intro holds
      exact ⟨sought, likes_self sought, holds⟩

end Place

end Text

/-! ### Reading a pattern -/

namespace Quoting

variable {q : Quoting} {mark : Char} {cs text rest : List Char}

private theorem length_behind {front ds : List Char} {read : Option (List Char × List Char)}
    (shorter : ∀ {text}, read = some (text, rest) → rest.length < ds.length)
    (made : read.map (behind front) = some (text, rest)) : rest.length < ds.length := by
  obtain ⟨⟨text', _⟩, found, same⟩ := Option.map_eq_some_iff.mp made
  cases same
  exact shorter found

/-- Reading to the end of a quoted text uses up its mark at least. -/
theorem length_readInside? (read : q.readInside? mark cs = some (text, rest)) :
    rest.length < cs.length := by
  induction cs using readInside?.induct q mark generalizing text with
  | case1 => cases read
  | case2 =>
    rw [readInside?, if_pos rfl] at read
    cases read
    exact Nat.one_pos
  | case3 c inside =>
    rw [readInside?, if_neg inside] at read
    cases read
  | case4 ds ih =>
    rw [readInside?, if_pos rfl, if_pos rfl] at read
    exact Nat.lt_of_lt_of_le (length_behind ih read) (Nat.le_add_right _ 2)
  | case5 d ds apart =>
    rw [readInside?, if_pos rfl, if_neg apart] at read
    cases read
    exact Nat.lt_succ_self _
  | case6 c d ds inside escaped ih =>
    rw [readInside?, if_neg inside, if_pos escaped] at read
    exact Nat.lt_of_lt_of_le (length_behind ih read) (Nat.le_add_right _ 2)
  | case7 c d ds inside plain ih =>
    rw [readInside?, if_neg inside, if_neg plain] at read
    exact Nat.lt_succ_of_lt (length_behind ih read)

/-- What is left behind a quoted text is shorter. -/
theorem length_read? (read : q.read? mark cs = some (text, rest)) : rest.length < cs.length := by
  cases cs with
  | nil => cases read
  | cons c cs =>
    rw [read?] at read
    split at read
    · exact Nat.lt_succ_of_lt (length_readInside? read)
    · cases read

/-- Reads quoted texts with something between them; gives the text that they make and what stands
behind the last. -/
def readJoined? (q : Quoting) (between cs : List Char) : Option (List Char × List Char) :=
  match _ : q.read? '\'' cs with
  | none => none
  | some (text, rest) =>
    if between <+: rest then
      (q.readJoined? between (rest.drop between.length)).map (behind text)
    else some (text, rest)
termination_by cs.length
decreasing_by
  have shorter := length_read? ‹_›
  rw [List.length_drop]
  omega

/-- The text that quoted texts make which reach up to the ending. -/
def joined? (q : Quoting) (between ending cs : List Char) : Option (List Char) :=
  match q.readJoined? between cs with
  | some (text, rest) => if rest = ending then some text else none
  | none => none

end Quoting

namespace Flavor

/-- Texts put together by the server. -/
def concatenation (f : Flavor) (texts : List String) : String :=
  match f with
  | generic | postgres => String.intercalate " || " texts
  | mysql => "CONCAT(" ++ String.intercalate ", " texts ++ ")"

/-- Reads texts that the server is to put together, and puts them together. -/
def concatenated? (f : Flavor) (cs : List Char) : Option (List Char) :=
  match f with
  | generic | postgres => f.quoting.joined? " || ".toList [] cs
  | mysql =>
    let opening := "CONCAT(".toList
    if opening <+: cs then f.quoting.joined? ", ".toList ")".toList (cs.drop opening.length)
    else none

variable {f : Flavor} {rest : List Char}

/-- Quoted texts are read back together, up to something that neither goes on with the last nor
leads to another one. -/
theorem readJoined?_strings {between : String} {c : Char} (begins : between.toList.head? = some c)
    (outside : c ≠ '\'') (apart : rest.head? ≠ some '\'') (last : ¬ between.toList <+: rest)
    (s : String) (texts : List String) :
    f.quoting.readJoined? between.toList
        ((String.intercalate between ((s :: texts).map f.string)).toList ++ rest) =
      some ((s :: texts).flatMap String.toList, rest) := by
  induction texts generalizing s with
  | nil =>
    have read := read?_string f s apart
    rw [List.map_singleton, String.intercalate_singleton, Quoting.readJoined?, read]
    simp [last]
  | cons t texts ih =>
    have next := ih t
    generalize others : String.intercalate between ((t :: texts).map f.string) = joined at next
    have written : (String.intercalate between ((s :: t :: texts).map f.string)).toList ++ rest =
        (f.string s).toList ++ (between.toList ++ (joined.toList ++ rest)) := by
      rw [← others]
      simp [String.intercalate_cons_cons]
    have separate : (between.toList ++ (joined.toList ++ rest)).head? ≠ some '\'' := by
      rw [List.head?_append, begins]
      simpa using outside
    have read := read?_string f s separate
    rw [written, Quoting.readJoined?, read]
    simp [next, Quoting.behind]

/-- The server makes of quoted texts the text that they are together. -/
theorem concatenated?_concatenation (f : Flavor) (s : String) (texts : List String) :
    f.concatenated? (f.concatenation ((s :: texts).map f.string)).toList =
      some ((s :: texts).flatMap String.toList) := by
  have joined (between ending : String) {c : Char} (begins : between.toList.head? = some c)
      (outside : c ≠ '\'') (apart : ending.toList.head? ≠ some '\'')
      (last : ¬ between.toList <+: ending.toList) :
      f.quoting.joined? between.toList ending.toList
          ((String.intercalate between ((s :: texts).map f.string)).toList ++ ending.toList) =
        some ((s :: texts).flatMap String.toList) := by
    rw [Quoting.joined?, readJoined?_strings begins outside apart last]
    exact if_pos rfl
  cases f with
  | generic | postgres =>
    have whole := joined " || " "" rfl (by decide) (by decide) (by decide)
    rw [String.toList_empty, List.append_nil] at whole
    exact whole
  | mysql =>
    rw [concatenated?, concatenation, String.toList_append, String.toList_append, List.append_assoc]
    simp only [List.prefix_append, ↓reduceIte, List.drop_left]
    exact joined ", " ")" rfl (by decide) (by decide) (by decide)

end Flavor

/-! ### What is written -/

namespace Text.Place

/-- The operator that looks for a text in the place. -/
def operator : Place → BinaryOperator
  | anywhere => .contains
  | front => .startsWith
  | back => .endsWith

/-- The text and the wildcards around it. -/
def texts (sought : String) : Place → List String
  | anywhere => ["%", sought, "%"]
  | front => [sought, "%"]
  | back => ["%", sought]

theorem flatMap_texts (place : Place) (sought : String) :
    (place.texts sought).flatMap String.toList = place.pattern sought.toList := by
  cases place <;> simp [texts, pattern]

end Text.Place

open Text (Place)

namespace Flavor

/-- The pattern is written as the concatenation of its texts. -/
theorem fill_likePattern (f : Flavor) (place : Place) (sought : String) :
    Piece.fill f.literalOf (f.likePattern place.operator.wildcards Expr.atomPrecedence
        [.hole (.literal (.varchar (some sought)))]) =
      .ok (f.concatenation ((place.texts sought).map f.string)) := by
  let wildcard : List Piece × String := ([.text (f.string "%")], f.string "%")
  let text : List Piece × String := ([.hole (.literal (.varchar (some sought)))], f.string sought)
  have wildcardFilled : Piece.fill f.literalOf wildcard.1 = .ok wildcard.2 := f.fill_text _
  have textFilled : Piece.fill f.literalOf text.1 = .ok text.2 := f.fill_literal _
  have joined (separator : String) {parts : List (List Piece × String)}
      (each : ∀ part ∈ parts, Piece.fill f.literalOf part.1 = .ok part.2) :
      Piece.fill f.literalOf (Piece.separated separator (parts.map Prod.fst)) =
        .ok (String.intercalate separator (parts.map Prod.snd)) := by
    have filled : (parts.map Prod.fst).mapM (Piece.fill f.literalOf) =
        .ok (parts.map Prod.snd) := by
      rw [List.mapM_map]
      exact Outcome.mapM_each each
    rw [Piece.fill_separated, filled]
    rfl
  have filled (separator : String) :
      ∃ parts : List (List Piece × String),
        parts.map Prod.fst = (if place.operator.wildcards.1 then [wildcard.1] else []) ++
          [text.1] ++ (if place.operator.wildcards.2 then [wildcard.1] else []) ∧
        parts.map Prod.snd = (place.texts sought).map f.string ∧
        Piece.fill f.literalOf (Piece.separated separator (parts.map Prod.fst)) =
          .ok (String.intercalate separator (parts.map Prod.snd)) := by
    cases place with
    | anywhere =>
      exact ⟨[wildcard, text, wildcard], rfl, rfl,
        joined separator (by simp [wildcardFilled, textFilled])⟩
    | front =>
      exact ⟨[text, wildcard], rfl, rfl,
        joined separator (by simp [wildcardFilled, textFilled])⟩
    | back =>
      exact ⟨[wildcard, text], rfl, rfl,
        joined separator (by simp [wildcardFilled, textFilled])⟩
  cases f with
  | generic | postgres =>
    obtain ⟨parts, written, texts, joined⟩ := filled " || "
    rw [written, texts] at joined
    exact joined
  | mysql =>
    obtain ⟨parts, written, texts, joined⟩ := filled ", "
    rw [written, texts] at joined
    have closed := Piece.fill_append_ok.mpr ⟨_, _, joined, fill_text mysql ")", rfl⟩
    exact Piece.fill_append_ok.mpr ⟨_, _, fill_text mysql "CONCAT(", closed, String.append_assoc⟩

end Flavor

namespace Expr

/-- A test whether the operand holds a text in the place. -/
def holds (place : Place) (x : Expr) (sought : String) : Expr :=
  .binary place.operator x (.literal (.varchar (some sought)))

/-- The operand of a test, in parentheses where it needs them. -/
def tested (place : Place) (x : Expr) (w : Manner) : List Piece :=
  Piece.parenthesized (x.precedence < place.operator.precedence) (x.write w)

theorem write_holds (place : Place) (x : Expr) (sought : String) (w : Manner) :
    (holds place x sought).write w =
      tested place x w ++ .text " LIKE " ::
        w.flavor.likePattern place.operator.wildcards atomPrecedence
          [.hole (.literal (.varchar (some sought)))] := by
  obtain ⟨f, _, _⟩ := w
  cases place <;> cases f <;> rfl

/-- The test reads as the operand and the pattern. -/
theorem inline_holds (place : Place) (x : Expr) (sought : String) (w : Manner) :
    (Template.ofPieces ((holds place x sought).write w)).inline w.flavor =
      (· ++ " LIKE " ++ w.flavor.concatenation ((place.texts sought).map w.flavor.string)) <$>
        (Template.ofPieces (tested place x w)).inline w.flavor := by
  rw [Flavor.inline_ofPieces, Flavor.inline_ofPieces, write_holds, Piece.fill_append, Piece.fill,
    Flavor.fill_likePattern]
  cases Piece.fill w.flavor.literalOf (tested place x w) with
  | error failure => rfl
  | ok operand => exact congrArg Except.ok String.append_assoc.symm

/-- What the operand is compared with is the pattern for the place. -/
theorem concatenated?_texts (f : Flavor) (place : Place) (sought : String) :
    f.concatenated? (f.concatenation ((place.texts sought).map f.string)).toList =
      some (place.pattern sought.toList) := by
  rw [← place.flatMap_texts sought]
  cases place <;> exact f.concatenated?_concatenation _ _

/-- The test asks whether the operand is like a pattern that the server puts together. A text is
like it that has something in the place that is like the text that is looked for; so has every text
that has this one there. No others are found when it has no wildcards in it, and only then. -/
theorem text_test_finds (place : Place) (x : Expr) (sought : String) (w : Manner) :
    ∃ written pattern,
      (Template.ofPieces ((holds place x sought).write w)).inline w.flavor =
        (· ++ " LIKE " ++ written) <$> (Template.ofPieces (tested place x w)).inline w.flavor ∧
      w.flavor.concatenated? written.toList = some pattern ∧
      (∀ cs, Text.likes pattern cs = true ↔
        ∃ t, Text.likes sought.toList t = true ∧ place.Holds t cs) ∧
      (∀ cs, place.Holds sought.toList cs → Text.likes pattern cs = true) ∧
      ((∀ cs, Text.likes pattern cs = true ↔ place.Holds sought.toList cs) ↔
        ∀ c ∈ sought.toList, Text.isWildcard c = false) :=
  ⟨_, _, inline_holds place x sought w, concatenated?_texts w.flavor place sought,
    fun _ => place.likes_pattern, fun _ => Place.likes_of_holds, place.finds_iff⟩

section
open Library

/-- Whether there is a percent sign in a name: every name is found. -/
theorem percent_found_without_percent : ∃ written pattern,
    (Template.ofPieces ((holds .anywhere (.column Author.nameColumn) "%").write
        { flavor := .postgres })).inline .postgres = .ok ("\"name\" LIKE " ++ written) ∧
      Flavor.postgres.concatenated? written.toList = some pattern ∧
      Text.likes pattern "Olga".toList = true ∧
      ¬ Place.anywhere.Holds "%".toList "Olga".toList := by
  refine ⟨_, _, inline_holds .anywhere _ "%" { flavor := .postgres },
    concatenated?_texts .postgres .anywhere "%", by decide, ?_⟩
  intro holds
  have member := Place.mem_of_holds holds '%' (by decide)
  revert member
  decide

end

end Expr

end PreparedSql
