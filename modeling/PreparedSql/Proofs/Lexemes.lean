import PreparedSql.Expr.Writing
import PreparedSql.Proofs.TemplateSymbols

/-! Statements cut into lexemes. No word of the expressions is the front of
another one, and a name ends where its last mark is neither doubled nor followed
by a point; so the cut does not depend on where the pieces of a statement met. -/
namespace PreparedSql

/-- The words that stand in written expressions. -/
inductive Word where
  | opening | closing | comma
  /-- What stands in an empty list. -/
  | nothing
  | upper
  | cases | branch | result | otherwise | ending
  | truth (b : Bool)
  /-- An operator in front of its operand, and one behind it. -/
  | ahead (op : UnaryOperator)
  | behind (op : UnaryOperator)
  /-- An operator between its operands. -/
  | sign (op : BinaryOperator)
  | ilike
  /-- What joins the parts of a pattern, and the part that stands for any text. -/
  | joined
  | wildcard
  deriving DecidableEq

namespace Word

def text : Word → String
  | opening => "("
  | closing => ")"
  | comma => ", "
  | nothing => "NULL"
  | upper => "UPPER("
  | cases => "CASE"
  | branch => " WHEN "
  | result => " THEN "
  | otherwise => " ELSE "
  | ending => " END"
  | truth b => Flavor.boolean b
  | ahead .negative => "-"
  | ahead _ => "NOT "
  | behind .isNull => " IS NULL"
  | behind _ => " IS NOT NULL"
  | sign op => op.between?.getD " "
  | ilike => " ILIKE "
  | joined => " || "
  | wildcard => "'%'"

/-- The words that expressions are written with. -/
def all : List Word :=
  [opening, closing, comma, nothing, upper, cases, branch, result, otherwise, ending, truth true,
    truth false, ahead .negative, ahead .not, behind .isNull, behind .isNotNull, ilike, joined,
    wildcard] ++ (BinaryOperator.all.filter (·.between?.isSome)).map sign

/-- No word is the front of another. -/
theorem eq_of_prefix : ∀ w ∈ all, ∀ w' ∈ all, w.text.toList <+: w'.text.toList → w = w' := by
  decide +kernel

/-- No word begins like a name or goes on like one. -/
theorem head_text : ∀ w ∈ all, ∃ c cs, w.text.toList = c :: cs ∧ c ≠ '"' ∧ c ≠ '.' := by
  have heads : ∀ w ∈ all, w.text.toList.head?.any fun c => c ≠ '"' && c ≠ '.' := by
    decide +kernel
  intro w member
  have head := heads w member
  cases text : w.text.toList with
  | nil => simp [text] at head
  | cons c cs =>
    simp only [text, List.head?_cons, Option.any_some, decide_not, Bool.and_eq_true,
      Bool.not_eq_true', decide_eq_false_iff_not] at head
    exact ⟨c, cs, rfl, head⟩

end Word

namespace Symbol

/-- What stands behind the characters, when the symbols begin with them. -/
def strip? : List Char → List Symbol → Option (List Symbol)
  | [], rest => some rest
  | c :: cs, char d :: rest => if c = d then strip? cs rest else none
  | _ :: _, _ => none

theorem strip?_some {cs : List Char} {ss rest : List Symbol} (stripped : strip? cs ss = some rest) :
    ss = cs.map char ++ rest := by
  induction cs generalizing ss with
  | nil =>
    cases stripped
    rfl
  | cons c cs ih =>
    cases ss with
    | nil => cases stripped
    | cons s ss =>
      cases s with
      | hole h => cases stripped
      | char d =>
        rw [strip?] at stripped
        split at stripped
        · next same =>
          rw [ih stripped, same]
          rfl
        · cases stripped

theorem strip?_append (cs : List Char) (rest : List Symbol) :
    strip? cs (cs.map char ++ rest) = some rest := by
  induction cs with
  | nil => rfl
  | cons c cs ih => simp [strip?, ih]

/-- A name from `inside` of its marks or outside of them: a mark changes sides,
and outside there is nothing but the points between names. -/
def scan (inside : Bool) : List Symbol → List Char × List Symbol
  | char c :: rest =>
    if c = '"' then
      let (cs, rest) := scan (!inside) rest
      (c :: cs, rest)
    else if inside || c = '.' then
      let (cs, rest) := scan inside rest
      (c :: cs, rest)
    else ([], char c :: rest)
  | rest => ([], rest)

theorem length_scan (inside : Bool) (ss : List Symbol) :
    (scan inside ss).2.length ≤ ss.length := by
  induction ss generalizing inside with
  | nil => simp [scan]
  | cons s ss ih =>
    cases s with
    | hole h => simp [scan]
    | char c =>
      rw [scan]
      split
      · exact Nat.le_succ_of_le (ih _)
      · split
        · exact Nat.le_succ_of_le (ih _)
        · exact Nat.le_refl _

/-- Whatever follows, no name goes on. -/
def EndsName (ss : List Symbol) : Prop :=
  ∀ c rest, ss = char c :: rest → c ≠ '"' ∧ c ≠ '.'

theorem scan_of_endsName {ss : List Symbol} (ends : EndsName ss) : scan false ss = ([], ss) := by
  cases ss with
  | nil => rfl
  | cons s ss =>
    cases s with
    | hole h => rfl
    | char c =>
      obtain ⟨noMark, noPoint⟩ := ends c ss rfl
      simp [scan, noMark, noPoint]

/-- The scan goes over the characters from one side to the other. -/
def Passes (inside : Bool) (cs : List Char) (inside' : Bool) : Prop :=
  ∀ rest, scan inside (cs.map char ++ rest) =
    (cs ++ (scan inside' rest).1, (scan inside' rest).2)

theorem passes_nil (inside : Bool) : Passes inside [] inside := fun _ => rfl

theorem passes_append {first middle last : Bool} {cs ds : List Char} (front : Passes first cs middle)
    (back : Passes middle ds last) : Passes first (cs ++ ds) last := by
  intro rest
  rw [List.map_append, List.append_assoc, front, back, List.append_assoc]

theorem passes_mark (inside : Bool) : Passes inside ['"'] (!inside) := fun _ => by simp [scan]

theorem passes_point (inside : Bool) : Passes inside ['.'] inside := fun _ => by simp [scan]

theorem passes_inside {c : Char} (other : c ≠ '"') : Passes true [c] true := fun _ => by
  simp [scan, other]

end Symbol

open PreparedSql.Symbol

/-- A piece of a statement that is read as a whole. -/
inductive Lexeme where
  | word (w : Word)
  | name (text : String)
  | hole (h : Hole)

namespace Lexeme

/-- The first lexeme, and what stands behind it. -/
def first? : List Symbol → Option (Lexeme × List Symbol)
  | [] => none
  | .hole h :: rest => some (hole h, rest)
  | .char c :: rest =>
    if c = '"' then
      some (name (String.ofList (c :: (scan true rest).1)), (scan true rest).2)
    else Word.all.findSome? fun w => (strip? w.text.toList (.char c :: rest)).map fun rest => (word w, rest)

theorem first?_shorter {ss rest : List Symbol} {x : Lexeme} (found : first? ss = some (x, rest)) :
    rest.length < ss.length := by
  cases ss with
  | nil => cases found
  | cons s ss =>
    cases s with
    | hole h =>
      cases found
      exact Nat.lt_succ_self _
    | char c =>
      rw [first?] at found
      split at found
      · cases found
        exact Nat.lt_succ_of_le (length_scan true ss)
      · obtain ⟨w, member, stripped⟩ := List.exists_of_findSome?_eq_some found
        obtain ⟨rest', stripped, same⟩ := Option.map_eq_some_iff.mp stripped
        cases same
        obtain ⟨d, ds, text, _⟩ := Word.head_text w member
        have whole := congrArg List.length (strip?_some stripped)
        rw [text] at whole
        simp only [List.length_append, List.length_map, List.length_cons] at whole
        simp only [List.length_cons]
        omega

/-- The lexemes of symbols, as far as there are any. -/
def ofSymbols (ss : List Symbol) : List Lexeme :=
  match _found : first? ss with
  | some (x, rest) => x :: ofSymbols rest
  | none => []
termination_by ss.length
decreasing_by exact first?_shorter _found

theorem ofSymbols_of_first? {ss rest : List Symbol} {x : Lexeme}
    (found : first? ss = some (x, rest)) : ofSymbols ss = x :: ofSymbols rest := by
  rw [ofSymbols]
  split
  · next found' =>
    rw [found] at found'
    cases found'
    rfl
  · next missing =>
    rw [found] at missing
    cases missing

@[simp] theorem ofSymbols_nil : ofSymbols [] = [] := by
  rw [ofSymbols]
  rfl

@[simp] theorem ofSymbols_hole (h : Hole) (rest : List Symbol) :
    ofSymbols (.hole h :: rest) = hole h :: ofSymbols rest :=
  ofSymbols_of_first? rfl

private theorem strip?_word {w w' : Word} (member : w ∈ Word.all) (member' : w' ∈ Word.all)
    {rest rest' : List Symbol} (stripped : strip? w'.text.toList (ofText w.text ++ rest) = some rest') :
    w' = w := by
  have distinct : Function.Injective Symbol.char := fun _ _ same => Symbol.char.inj same
  have front : ofText w.text <+: ofText w.text ++ rest := List.prefix_append _ _
  have front' : w'.text.toList.map .char <+: ofText w.text ++ rest := by
    rw [strip?_some stripped]
    exact List.prefix_append _ _
  rcases List.prefix_or_prefix_of_prefix front front' with shorter | longer
  · have within := (List.prefix_map_iff_of_injective distinct).mp shorter
    exact (Word.eq_of_prefix w member w' member' within).symm
  · have within := (List.prefix_map_iff_of_injective distinct).mp longer
    exact Word.eq_of_prefix w' member' w member within

/-- A word is read as that word, whatever follows. -/
theorem ofSymbols_word {w : Word} (member : w ∈ Word.all) (rest : List Symbol) :
    ofSymbols (ofText w.text ++ rest) = word w :: ofSymbols rest := by
  refine ofSymbols_of_first? ?_
  obtain ⟨c, cs, text, noMark, _⟩ := Word.head_text w member
  have opened : ofText w.text ++ rest = .char c :: (cs.map .char ++ rest) := by
    simp [ofText, text]
  rw [opened, first?, if_neg noMark, ← opened]
  have stripped : strip? w.text.toList (ofText w.text ++ rest) = some rest := strip?_append _ _
  cases found : Word.all.findSome? fun w' =>
      (strip? w'.text.toList (ofText w.text ++ rest)).map fun rest => (word w', rest) with
  | none =>
    have missing := List.findSome?_eq_none_iff.mp found w member
    rw [stripped] at missing
    cases missing
  | some answer =>
    obtain ⟨w', member', found'⟩ := List.exists_of_findSome?_eq_some found
    obtain ⟨rest', stripped', rfl⟩ := Option.map_eq_some_iff.mp found'
    obtain rfl := strip?_word member member' stripped'
    obtain rfl := Option.some.inj (stripped.symm.trans stripped')
    rfl

end Lexeme

/-! ### Names of columns -/

/-- The text begins with a mark and ends outside of its marks. -/
def Symbol.IsName (s : String) : Prop :=
  ∃ cs, s.toList = '"' :: cs ∧ Passes true cs false

/-- A name is read whole, when nothing makes it longer. -/
theorem Lexeme.ofSymbols_name {name : String} {rest : List Symbol} (isName : IsName name)
    (ends : EndsName rest) : ofSymbols (ofText name ++ rest) = .name name :: ofSymbols rest := by
  obtain ⟨cs, text, passes⟩ := isName
  refine ofSymbols_of_first? ?_
  have opened : ofText name ++ rest = .char '"' :: (cs.map .char ++ rest) := by
    simp [ofText, text]
  rw [opened, first?, if_pos rfl, passes, scan_of_endsName ends, List.append_nil, ← text,
    String.ofList_toList]

namespace Flavor

variable {f : Flavor}

private theorem toList_identifier (marked : f.nameMark = '"') (name : String) :
    ∃ inner, (f.identifier name).toList = '"' :: (inner ++ ['"']) ∧ Passes true inner true := by
  refine ⟨name.toList.flatMap fun c => if c = '"' then ['"', '"'] else [c], ?_, ?_⟩
  · rw [identifier, Text.toList_enclosed, marked]
  · induction name.toList with
    | nil => exact passes_nil true
    | cons c cs ih =>
      rw [List.flatMap_cons]
      refine passes_append ?_ ih
      split
      · exact passes_append (passes_mark true) (passes_mark false)
      · next other => exact passes_inside other

private theorem isName_identifier (marked : f.nameMark = '"') (name : String) :
    IsName (f.identifier name) := by
  obtain ⟨inner, text, passes⟩ := toList_identifier marked name
  exact ⟨_, text, passes_append passes (passes_mark true)⟩

/-- A name behind another one is one longer name. -/
private theorem isName_behind (marked : f.nameMark = '"') (outer : String) {name : String}
    (isName : IsName name) : IsName (f.identifier outer ++ "." ++ name) := by
  obtain ⟨inner, text, passes⟩ := toList_identifier marked outer
  obtain ⟨cs, text', passes'⟩ := isName
  refine ⟨inner ++ ['"'] ++ ['.'] ++ ['"'] ++ cs, by simp [text, text'], ?_⟩
  exact passes_append (passes_append (passes_append (passes_append passes (passes_mark true))
    (passes_point false)) (passes_mark false)) passes'

/-- What is written for a column is one name. -/
theorem isName_column (marked : f.nameMark = '"') (qualify : Bool) (c : ColumnRef) :
    IsName (f.column qualify c) := by
  unfold column
  split
  · next qualified =>
    have behindTable := isName_behind marked c.table (isName_identifier marked c.name)
    by_cases schema : c.schema = ""
    · have short : f.qualified [c.schema, c.table] c.name =
          f.identifier c.table ++ "." ++ f.identifier c.name := by
        simp [Flavor.qualified, schema, qualified.2, String.join]
      rwa [short]
    · have long : f.qualified [c.schema, c.table] c.name = f.identifier c.schema ++ "." ++
          (f.identifier c.table ++ "." ++ f.identifier c.name) := by
        simp [Flavor.qualified, schema, qualified.2, String.join, String.append_assoc]
      rw [long]
      exact isName_behind marked c.schema behindTable
  · exact isName_identifier marked c.name

end Flavor

end PreparedSql
