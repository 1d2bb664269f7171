import PreparedSql.Proofs.ArgumentPositions
import PreparedSql.Proofs.CommentScanning
import PreparedSql.Sql.Definition

/-! Reading a list between parentheses. Its items stand between commas, and a comma or a parenthesis
that lies within a literal, within a quoted name or within brackets of its own belongs to an item.
Whatever value a literal is of, also a list of lists, it is read as one item: its quotes and its
brackets are closed where it ends. -/
namespace PreparedSql

open Text

namespace Flavor

variable {f : Flavor} {z : Zone} {r : Reading} {d : Nat} {c : Char} {cs ds rest : List Char}

/-- How deep in brackets a reader stands behind a character. -/
def depth (z : Zone) (d : Nat) (c : Char) : Nat :=
  if z = .outside then
    if c = '(' ∨ c = '[' then d + 1 else if c = ')' ∨ c = ']' then d - 1 else d
  else d

/-- The first item of a list, the items behind it, and what stands behind the list. -/
abbrev ItemsRead := List Char × List (List Char) × List Char

/-- The characters belong to the first item. -/
def onto (cs : List Char) : ItemsRead → ItemsRead
  | (item, items, rest) => (cs ++ item, items, rest)

/-- Reads up to the parenthesis that closes the list, within which the reader stands. -/
def readItems? (f : Flavor) : Zone → Nat → List Char → Option ItemsRead
  | _, _, [] => none
  | z, d, c :: cs =>
    if z = .outside ∧ d = 0 ∧ c = ')' then some ([], [], cs)
    else if z = .outside ∧ d = 0 ∧ c = ',' then
      (f.readItems? .outside 0 cs).map fun (item, items, rest) => ([], item :: items, rest)
    else (f.readItems? (f.enter z c) (depth z d c) cs).map (onto [c])

theorem onto_comp (cs ds : List Char) : onto cs ∘ onto ds = onto (cs ++ ds) := by
  funext read
  simp [onto]

theorem readItems?_nil_append :
    f.readItems? z d ([] ++ rest) = (f.readItems? z d rest).map (onto []) := by
  have nothing : onto [] = id := rfl
  rw [List.nil_append, nothing, Option.map_id, id]

/-- What ends a list or an item of it, or opens and closes brackets. -/
def itemMarks : List Char :=
  ['(', ')', '[', ']', ',']

/-- What ends an item, or may hide its end. -/
def marksItem (f : Flavor) : Char → Bool :=
  (f.nameMark :: itemMarks).contains

theorem marksItem_eq_false : f.marksItem c = false ↔ c ≠ f.nameMark ∧ c ∉ itemMarks := by
  simp [marksItem]

/-- No mark is part of a word. -/
theorem marksItem_of_isBare (c : Char) (bare : isBare c = true) : f.marksItem c = false :=
  separates (by cases f <;> decide) c bare

/-- A character that ends nothing belongs to the item that is read. -/
theorem readItems?_cons (plain : z = .outside → c ∉ itemMarks) :
    f.readItems? z d (c :: cs) = (f.readItems? (f.enter z c) d cs).map (onto [c]) := by
  rw [readItems?]
  by_cases outside : z = .outside
  · have unmarked := plain outside
    simp only [itemMarks, List.mem_cons, List.not_mem_nil, or_false, not_or] at unmarked
    obtain ⟨opening, closing, opening', closing', comma⟩ := unmarked
    rw [if_neg (by simp [closing]), if_neg (by simp [comma])]
    simp [depth, opening, opening', closing, closing']
  · simp [outside, depth]

/-- Within a name nothing ends an item. -/
theorem readItems?_name :
    f.readItems? .name d (c :: cs) = (f.readItems? (f.enter .name c) d cs).map (onto [c]) :=
  readItems?_cons fun outside => by cases outside

/-! ### Items -/

/-- A text within brackets: it is read as part of the item that has the brackets. -/
def Inner (f : Flavor) (cs : List Char) : Prop :=
  ∀ d rest, f.readItems? .outside (d + 1) (cs ++ rest) =
    (f.readItems? .outside (d + 1) rest).map (onto cs)

/-- A text that is read as part of one item, wherever it stands. -/
def Whole (f : Flavor) (cs : List Char) : Prop :=
  ∀ d rest, f.readItems? .outside d (cs ++ rest) = (f.readItems? .outside d rest).map (onto cs)

theorem inner_of_whole (whole : f.Whole cs) : f.Inner cs :=
  fun d rest => whole (d + 1) rest

theorem whole_nil : f.Whole [] :=
  fun _ _ => readItems?_nil_append

theorem whole_append (front : f.Whole cs) (back : f.Whole ds) : f.Whole (cs ++ ds) := by
  intro d rest
  rw [List.append_assoc, front, back, Option.map_map, onto_comp]

theorem inner_append (front : f.Inner cs) (back : f.Inner ds) : f.Inner (cs ++ ds) := by
  intro d rest
  rw [List.append_assoc, front, back, Option.map_map, onto_comp]

/-- A comma within brackets separates no items of the list around them. -/
theorem inner_comma : f.Inner [','] := by
  intro d rest
  have outside : f.enter .outside ',' = .outside := by cases f <;> rfl
  simp [readItems?, outside, depth]

theorem whole_plain (unquoted : c ≠ '\'') (unmarked : f.marksItem c = false) : f.Whole [c] := by
  intro d rest
  obtain ⟨unnamed, plain⟩ := marksItem_eq_false.mp unmarked
  have outside : f.enter .outside c = .outside := by simp [enter, unquoted, unnamed]
  rw [List.singleton_append, readItems?_cons fun _ => plain, outside]

/-- Brackets around a text make it whole. -/
theorem whole_bracketed {opening closing : Char} (inner : f.Inner cs)
    (kind : (opening, closing) ∈ [('(', ')'), ('[', ']')]) :
    f.Whole (opening :: (cs ++ [closing])) := by
  intro d rest
  have opened : f.readItems? .outside d (opening :: (cs ++ [closing] ++ rest)) =
      (f.readItems? .outside (d + 1) (cs ++ ([closing] ++ rest))).map (onto [opening]) := by
    rw [← List.append_assoc]
    simp only [List.mem_cons, Prod.mk.injEq, List.not_mem_nil, or_false] at kind
    obtain ⟨rfl, rfl⟩ | ⟨rfl, rfl⟩ := kind <;>
      cases f <;> simp [readItems?, depth, enter, nameMark]
  have closed : f.readItems? .outside (d + 1) ([closing] ++ rest) =
      (f.readItems? .outside d rest).map (onto [closing]) := by
    simp only [List.mem_cons, Prod.mk.injEq, List.not_mem_nil, or_false] at kind
    obtain ⟨rfl, rfl⟩ | ⟨rfl, rfl⟩ := kind <;>
      cases f <;> simp [readItems?, depth, enter, nameMark]
  rw [List.cons_append, opened, inner, closed, Option.map_map, Option.map_map, onto_comp, onto_comp]
  rfl

/-- A text that hides the marks is whole. -/
theorem readItems?_places
    (hidden : ∀ c, (c, true) ∈ f.quoting.places r cs → f.marksItem c = false) :
    f.readItems? r.zone d (cs ++ rest) =
      (f.readItems? (f.quoting.run r cs).zone d rest).map (onto cs) := by
  induction cs generalizing r with
  | nil => exact readItems?_nil_append
  | cons c cs ih =>
    have quotes : f.marksItem '\'' = false := by cases f <;> rfl
    have plain (out : r.isOutside = true) : c ≠ f.nameMark ∧ c ∉ itemMarks := by
      rw [← marksItem_eq_false]
      by_cases quote : c = '\''
      · rw [quote, quotes]
      · exact hidden c (by simp [Quoting.places, out, quote])
    have outside (zone : r.zone = .outside) : r.isOutside = true := by
      cases r <;> first | rfl | cases zone
    have entered : f.enter r.zone c = (f.quoting.step r c).zone :=
      enter_zone fun out => .inr (plain out).1
    rw [List.cons_append, readItems?_cons fun zone => (plain (outside zone)).2, entered,
      ih fun d member => hidden d (List.mem_cons_of_mem _ member), Option.map_map, onto_comp]
    rfl

theorem whole_hides (hides : f.quoting.Hides f.marksItem cs) : f.Whole cs := by
  intro d rest
  have read : f.readItems? .outside d (cs ++ rest) =
      (f.readItems? (f.quoting.run .outside cs).zone d rest).map (onto cs) :=
    readItems?_places (r := .outside) hides.hidden
  have ends := hides.ends
  have zone : (f.quoting.run .outside cs).zone = .outside := by
    cases last : f.quoting.run .outside cs with
    | outside | closing => rfl
    | inside | escaped =>
      rw [last] at ends
      cases ends
  rwa [zone] at read

/-! ### Literals and names -/

theorem whole_bare (bare : Bare cs) : f.Whole cs :=
  whole_hides (hides_bare marksItem_of_isBare bare)

theorem inner_intercalate {separator : List Char} {xs : List (List Char)}
    (between : f.Inner separator) (each : ∀ x ∈ xs, f.Inner x) :
    f.Inner (separator.intercalate xs) := by
  induction xs with
  | nil => exact inner_of_whole whole_nil
  | cons x xs ih =>
    obtain ⟨first, others⟩ := List.forall_mem_cons.mp each
    cases xs with
    | nil => rwa [List.intercalate_singleton]
    | cons y ys =>
      rw [List.intercalate_cons_cons]
      exact inner_append (inner_append first between) (ih others)

theorem whole_listing {items : List String} (each : ∀ s ∈ items, f.Whole s.toList) :
    f.Whole (f.listing items).toList := by
  have inner : ∀ cs ∈ items.map String.toList, f.Inner cs := by
    intro cs member
    obtain ⟨s, known, rfl⟩ := List.mem_map.mp member
    exact inner_of_whole (each s known)
  have array (comma : f.Inner [',']) : f.Whole ("ARRAY".toList ++
      '[' :: ([','].intercalate (items.map String.toList) ++ [']'])) :=
    whole_append (whole_bare (by decide))
      (whole_bracketed (inner_intercalate comma inner) (by decide))
  have blank : f.Whole [' '] := whole_plain (by decide) (by cases f <;> rfl)
  have comma := inner_append f.inner_comma (inner_of_whole blank)
  have list : f.Whole
      ('(' :: ([',', ' '].intercalate (items.map String.toList) ++ [')'])) :=
    whole_bracketed (inner_intercalate comma inner) (by decide)
  cases f with
  | generic | postgres => simpa [listing, String.toList_intercalate] using array inner_comma
  | mysql => simpa [listing, String.toList_intercalate] using list

mutual

/-- The literal of any value is one item. -/
theorem whole_literal {f : Flavor} : {v : Value} → {text : String} → f.literal v = .ok text →
    f.Whole text.toList
  | .list (some items) _, _, written => by
    obtain ⟨texts, each, rfl⟩ := literal_list written
    exact whole_listing (whole_literals each)
  | .null, _, written | .boolean _, _, written | .int _ _, _, written | .single _, _, written
  | .double _, _, written | .decimal _ _ _, _, written | .varchar _, _, written
  | .blob _, _, written | .date _, _, written | .time _, _, written | .timestamp _, _, written
  | .zoned _, _, written | .uuid _, _, written | .list none _, _, written
  | .unknown _, _, written => whole_hides (f.hides_literal marksItem_of_isBare rfl written)

theorem whole_literals {f : Flavor} : {vs : List Value} → {texts : List String} →
    f.literals vs = .ok texts → ∀ s ∈ texts, f.Whole s.toList
  | [], _, written => by
    cases written
    exact fun _ none => by cases none
  | v :: vs, _, written => by
    obtain ⟨text, texts, first, rest, rfl⟩ := literals_cons written
    exact List.forall_mem_cons.mpr ⟨whole_literal first, whole_literals rest⟩

end

theorem nameMark_not_mem (f : Flavor) : f.nameMark ∉ itemMarks := by
  cases f <;> decide

/-- Within a name a doubled mark ends nothing. -/
theorem readItems?_doubled (cs rest : List Char) : f.readItems? .name d (f.doubled cs ++ rest) =
    (f.readItems? .name d rest).map (onto (f.doubled cs)) := by
  induction cs with
  | nil => exact readItems?_nil_append
  | cons c cs ih =>
    rw [doubled, List.flatMap_cons, List.append_assoc, ← doubled]
    split
    · rw [List.cons_append, List.singleton_append, readItems?_name, f.enter_nameMark.2,
        readItems?_cons fun _ => f.nameMark_not_mem, f.enter_nameMark.1, ih, Option.map_map,
        Option.map_map, onto_comp, onto_comp]
      rfl
    · next other =>
      have stays : f.enter .name c = .name := if_neg other
      rw [List.singleton_append, readItems?_name, stays, ih, Option.map_map, onto_comp]

/-- A quoted name is one item, whatever it holds. -/
theorem whole_identifier (name : String) : f.Whole (f.identifier name).toList := by
  intro d rest
  rw [toList_identifier_doubled, List.cons_append, List.append_assoc, List.singleton_append,
    readItems?_cons fun _ => f.nameMark_not_mem, f.enter_nameMark.1, readItems?_doubled,
    readItems?_name, f.enter_nameMark.2, Option.map_map, Option.map_map, onto_comp, onto_comp]
  simp

/-! ### Lists -/

/-- A text that is read as an item: it is whole, there is something of it, and it does not begin
with a blank. -/
structure IsItem (f : Flavor) (s : String) : Prop where
  whole : f.Whole s.toList
  filled : s.toList ≠ []
  solid : unindented s.toList = s.toList

/-- The items of a list between parentheses, and what stands behind it. -/
def readTuple? (f : Flavor) : List Char → Option (List String × List Char)
  | '(' :: cs => (f.readItems? .outside 0 cs).map fun (item, items, rest) =>
    let all := if item = [] ∧ items = [] then [] else item :: items
    ((all.map unindented).map String.ofList, rest)
  | _ => none

/-- What stands behind a list is shorter than the text from the list on. -/
theorem readItems?_shorter {item : List Char} {items : List (List Char)}
    (read : f.readItems? z d cs = some (item, items, rest)) : rest.length < cs.length := by
  induction cs generalizing z d item items with
  | nil => cases read
  | cons c cs ih =>
    rw [readItems?] at read
    split at read
    · cases read
      exact Nat.lt_succ_self _
    · split at read <;>
      · obtain ⟨⟨_, _, _⟩, inner, same⟩ := Option.map_eq_some_iff.mp read
        cases same
        exact Nat.lt_succ_of_lt (ih inner)

theorem readTuple?_shorter {items : List String} (read : f.readTuple? cs = some (items, rest)) :
    rest.length < cs.length := by
  unfold readTuple? at read
  split at read
  · obtain ⟨⟨_, _, _⟩, inner, same⟩ := Option.map_eq_some_iff.mp read
    cases same
    exact Nat.lt_succ_of_lt (readItems?_shorter inner)
  · cases read

private theorem readItems?_listed {x : List Char} {xs : List (List Char)}
    (whole : ∀ y ∈ x :: xs, f.Whole y) (rest : List Char) :
    f.readItems? .outside 0 ([',', ' '].intercalate (x :: xs) ++ ')' :: rest) =
      some (x, xs.map (' ' :: ·), rest) := by
  obtain ⟨first, others⟩ := List.forall_mem_cons.mp whole
  induction xs generalizing x with
  | nil =>
    have closed : f.readItems? .outside 0 (')' :: rest) = some ([], [], rest) := rfl
    rw [List.intercalate_singleton, first, closed]
    simp [onto]
  | cons y ys ih =>
    obtain ⟨second, others⟩ := List.forall_mem_cons.mp others
    have blank : f.Whole [' '] := whole_plain (by decide) (by cases f <;> rfl)
    have lead : f.Whole (' ' :: y) := whole_append blank second
    -- The blank goes with the item behind it.
    have moved : [',', ' '].intercalate (x :: y :: ys) ++ ')' :: rest =
        x ++ ',' :: ([',', ' '].intercalate ((' ' :: y) :: ys) ++ ')' :: rest) := by
      cases ys <;> simp [List.intercalate_cons_cons]
    have behind := ih (List.forall_mem_cons.mpr ⟨lead, others⟩) lead others
    rw [moved, first, readItems?, if_neg (by decide), if_pos (by decide), behind]
    simp [onto]

/-- The items of a list are read back. -/
theorem readTuple?_tuple {items : List String} (each : ∀ s ∈ items, f.IsItem s)
    (rest : List Char) : f.readTuple? ((tuple items).toList ++ rest) = some (items, rest) := by
  cases items with
  | nil => rfl
  | cons s items =>
    have text : (tuple (s :: items)).toList ++ rest =
        '(' :: ([',', ' '].intercalate (s.toList :: items.map String.toList) ++ ')' :: rest) := by
      simp [tuple, String.toList_intercalate]
    have known : ∀ cs ∈ s.toList :: items.map String.toList, f.Whole cs ∧ unindented cs = cs := by
      rw [← List.map_cons (f := String.toList)]
      intro cs member
      obtain ⟨t, inside, rfl⟩ := List.mem_map.mp member
      exact ⟨(each t inside).whole, (each t inside).solid⟩
    have filled := (each s List.mem_cons_self).filled
    have solid := map_unindented fun cs member => (known cs member).2
    rw [text, readTuple?, readItems?_listed fun cs member => (known cs member).1]
    simp only [Option.map_some, filled, false_and, ↓reduceIte, solid]
    simp [Function.comp_def]

end Flavor

end PreparedSql
