import PreparedSql.Prepared.Vendor
import PreparedSql.Proofs.SealedLiterals

/-! The places of arguments in the statements that hand them over. A server finds the arguments
of a call between the parentheses and those of assignments between the commas; whatever the
arguments hold, it finds each of them in its own place, as many as there are, and the statement
ends with the first semicolon that is not part of a text. -/
namespace PreparedSql

open Text

/-! ### Lists of texts -/

namespace Quoting

variable {q : Quoting} {mark : Char → Bool} {c : Char} {x rest : List Char} {xs : List (List Char)}

/-- A list whose items hide the marks is cut into them, each but the first behind a blank. -/
theorem cut_intercalate (hides : ∀ y ∈ x :: xs, q.Hides mark y) (comma : mark ',' = true)
    (blank : mark ' ' = false) (bare : c ≠ '\'') (marked : mark c = true) :
    q.cut mark ([',', ' '].intercalate (x :: xs) ++ c :: rest) =
      x :: xs.map (' ' :: ·) ++ q.cut mark rest := by
  obtain ⟨first, others⟩ := List.forall_mem_cons.mp hides
  induction xs generalizing x with
  | nil =>
    rw [List.intercalate_singleton]
    exact cut_append first bare marked
  | cons y ys ih =>
    obtain ⟨second, others⟩ := List.forall_mem_cons.mp others
    have lead : q.Hides mark (' ' :: y) := hides_cons (by decide) blank second
    -- The blank goes with the item behind it.
    have moved : [',', ' '].intercalate (x :: y :: ys) ++ c :: rest =
        x ++ ',' :: ([',', ' '].intercalate ((' ' :: y) :: ys) ++ c :: rest) := by
      cases ys with
      | nil => simp
      | cons z zs => simp [List.intercalate_cons_cons]
    rw [moved, cut_append first (by decide) comma,
      ih (List.forall_mem_cons.mpr ⟨lead, others⟩) lead others]
    rfl

theorem hides_intercalate (hides : ∀ y ∈ x :: xs, q.Hides mark y) (comma : mark ',' = false)
    (blank : mark ' ' = false) : q.Hides mark ([',', ' '].intercalate (x :: xs)) := by
  obtain ⟨first, others⟩ := List.forall_mem_cons.mp hides
  induction xs generalizing x with
  | nil =>
    rw [List.intercalate_singleton]
    exact first
  | cons y ys ih =>
    have listed := ih others (List.forall_mem_cons.mp others).1 (List.forall_mem_cons.mp others).2
    rw [List.intercalate_cons_cons, List.append_assoc]
    exact hides_append first (by decide) comma (hides_cons (by decide) blank listed)

end Quoting

/-! ### What a server reads -/

/-- The text without the blanks in front of it. -/
def unindented (cs : List Char) : List Char :=
  cs.dropWhile (· == ' ')

/-- What a server reads as the arguments of a call: the parts between commas, from the opening
parenthesis up to the closing one. -/
def readArguments (q : Quoting) (text : List Char) : List (List Char) :=
  let parts := q.cut ['(', ',', ')'].contains text
  parts.tail.dropLast.map unindented

/-- A target, and what stands behind the sign of equality. -/
def readAssignment (part : List Char) : List Char × List Char :=
  let part := unindented part
  (part.takeWhile (· != ' '), unindented ((part.dropWhile (· != '=')).drop 1))

theorem readAssignment_append {target value : List Char} (present : target ≠ [])
    (plain : ∀ c ∈ target, c ≠ ' ' ∧ c ≠ '=') :
    readAssignment (target ++ ' ' :: '=' :: ' ' :: value) = (target, unindented value) := by
  have solid : unindented (target ++ ' ' :: '=' :: ' ' :: value) =
      target ++ ' ' :: '=' :: ' ' :: value := by
    cases target with
    | nil => exact absurd rfl present
    | cons c cs => exact List.dropWhile_cons_of_neg (by simpa using (plain c List.mem_cons_self).1)
  have blank : ∀ c ∈ target, (c != ' ') = true := fun c member => by simpa using (plain c member).1
  have sign : ∀ c ∈ target, (c != '=') = true := fun c member => by simpa using (plain c member).2
  rw [readAssignment, solid, List.takeWhile_append_of_pos blank, List.dropWhile_append_of_pos sign]
  simp [unindented]

/-- What a server reads as assignments: the parts between commas, from the word in front up to
the semicolon. -/
def readAssignments (q : Quoting) (text : List Char) : List (List Char × List Char) :=
  let parts := q.cut [',', ';'].contains (text.drop "SET ".length)
  parts.dropLast.map readAssignment

/-- The first semicolon outside of literals is the last character. -/
def EndsAtSemicolon (q : Quoting) (text : List Char) : Prop :=
  ∃ front, text = front ++ [';'] ∧ q.cut [';'].contains text = [front, []]

theorem endsAtSemicolon {q : Quoting} {front text : List Char}
    (hides : q.Hides [';'].contains front) (whole : text = front ++ [';']) :
    EndsAtSemicolon q text := by
  refine ⟨front, whole, ?_⟩
  rw [whole, Quoting.cut_append hides (by decide) rfl, Quoting.cut_hides Quoting.hides_nil]

/-! ### Names -/

theorem isBare_nameChar (c : Char) : isBare (nameChar c) = true := by
  unfold nameChar
  split
  · next alphanum =>
    exact of_ascii (P := fun c => c.isAlphanum = true → isBare c.toLower = true) (by decide)
      (toNat_lt_of_isAlphanum alphanum) alphanum
  · decide

/-- The name of a statement is a word. -/
theorem bare_statementName (table body : String) : Bare (statementName table body).toList := by
  have kept : Bare ((table.toList.map nameChar).take keptTableChars) := by
    refine bare_take _ fun c member => ?_
    obtain ⟨d, _, rfl⟩ := List.mem_map.mp member
    exact isBare_nameChar d
  have front : Bare (tableChars table) := by
    unfold tableChars
    dsimp only
    split
    · decide
    · exact bare_ite (bare_cons.mpr ⟨by decide, kept⟩) kept
  simp only [statementName, String.toList_append, String.toList_ofList, bare_append]
  exact ⟨⟨front, by decide⟩, bare_take _ (bare_hexEncode _)⟩

/-! ### Statements with arguments -/

/-- Marks that are no part of a word. -/
def Separating (marks : List Char) : Prop :=
  ∀ m ∈ marks, isBare m = false

instance (marks : List Char) : Decidable (Separating marks) :=
  List.decidableBAll _ marks

theorem separates {marks : List Char} (apart : Separating marks) (c : Char)
    (bare : isBare c = true) : marks.contains c = false := by
  rw [Bool.eq_false_iff]
  intro marked
  have word := apart c (List.contains_iff_mem.mp marked)
  rw [bare] at word
  cases word

/-- A text without bare blanks begins with no blank. -/
theorem unindented_of_hides {q : Quoting} {cs : List Char} (hides : q.Hides [' '].contains cs) :
    unindented cs = cs := by
  cases cs with
  | nil => rfl
  | cons c cs =>
    have solid : ¬ (c == ' ') = true := by
      intro same
      obtain rfl : c = ' ' := by simpa using same
      have hidden := hides.hidden ' ' List.mem_cons_self
      cases hidden
    exact List.dropWhile_cons_of_neg solid

/-- Of listed items that begin with no blank, the blanks between them are taken away. -/
theorem map_unindented {x : List Char} {xs : List (List Char)}
    (solid : ∀ y ∈ x :: xs, unindented y = y) :
    (x :: xs.map (' ' :: ·)).map unindented = x :: xs := by
  obtain ⟨first, others⟩ := List.forall_mem_cons.mp solid
  have behind : xs.map (unindented ∘ (' ' :: ·)) = xs.map id :=
    List.map_congr_left fun y member => others y member
  rw [List.map_cons, List.map_map, behind, List.map_id, first]

namespace Vendor

/-- The texts are the literals of values without items. -/
def Literals (f : Flavor) (literals : List String) : Prop :=
  ∀ s ∈ literals, ∃ v : Value, v.hasItems = false ∧ f.literal v = .ok s

theorem literals_of_values {f : Flavor} {arguments : List Value} {literals : List String}
    (alone : ∀ v ∈ arguments, v.hasItems = false)
    (written : arguments.mapM f.literal = .ok literals) : Literals f literals := by
  intro s member
  obtain ⟨v, known, one⟩ := Outcome.mem_of_mapM written s member
  exact ⟨v, alone v known, one⟩

variable {f : Flavor} {s : String} {literals : List String}

/-- The literals of values without items hide whatever separates them. -/
theorem hides_literals (marks : List Char) (values : Literals f literals)
    (apart : Separating marks) :
    ∀ cs ∈ literals.map String.toList, f.quoting.Hides marks.contains cs := by
  intro cs member
  obtain ⟨s, known, rfl⟩ := List.mem_map.mp member
  obtain ⟨v, alone, written⟩ := values s known
  exact f.hides_literal (separates apart) alone written

theorem unindented_literals (values : Literals f literals) :
    ∀ cs ∈ literals.map String.toList, unindented cs = cs :=
  fun cs member => unindented_of_hides (hides_literals [' '] values (by decide) cs member)

theorem execute_cons (name : String) (s : String) (literals : List String) :
    (postgres.execute name (s :: literals)).toList = ("EXECUTE ".toList ++ name.toList) ++ '(' ::
      ([',', ' '].intercalate ((s :: literals).map String.toList) ++ ')' :: [';']) := by
  simp [execute, String.toList_intercalate]

theorem execute_nil (name : String) :
    (postgres.execute name []).toList = ("EXECUTE ".toList ++ name.toList) ++ [';'] := by
  simp [execute]

/-- What stands in front of the arguments of a call hides what separates words, the blank behind
the first word apart. -/
theorem hides_called (marks : List Char) (table body : String) (apart : Separating marks)
    (blank : marks.contains ' ' = false) :
    Quoting.standard.Hides marks.contains
      ("EXECUTE ".toList ++ (statementName table body).toList) := by
  have word : Quoting.standard.Hides marks.contains "EXECUTE".toList :=
    Flavor.hides_bare (separates apart) (by decide)
  have name := Flavor.hides_bare (q := .standard) (separates apart) (bare_statementName table body)
  have split : "EXECUTE ".toList = "EXECUTE".toList ++ [' '] := by decide
  rw [split, List.append_assoc, List.singleton_append]
  exact Quoting.hides_append word (by decide) blank name

theorem readArguments_execute (table body : String) (values : Literals .postgres literals) :
    readArguments .standard (postgres.execute (statementName table body) literals).toList =
      literals.map String.toList := by
  have front := hides_called ['(', ',', ')'] table body (by decide) rfl
  cases literals with
  | nil =>
    have whole := Quoting.hides_append front (c := ';') (by decide) (by decide) Quoting.hides_nil
    rw [readArguments, execute_nil, Quoting.cut_hides whole]
    rfl
  | cons s literals =>
    have hidden : ∀ cs ∈ s.toList :: literals.map String.toList,
        Quoting.standard.Hides ['(', ',', ')'].contains cs :=
      hides_literals _ values (by decide)
    have last : Quoting.standard.cut ['(', ',', ')'].contains [';'] = [[';']] := by decide
    rw [readArguments, execute_cons, Quoting.cut_append front (by decide) (by decide),
      List.map_cons, Quoting.cut_intercalate hidden (by decide) (by decide) (by decide) (by decide),
      last, List.tail_cons, List.dropLast_concat]
    exact map_unindented (unindented_literals values)

theorem endsAtSemicolon_execute (table body : String) (values : Literals .postgres literals) :
    EndsAtSemicolon .standard (postgres.execute (statementName table body) literals).toList := by
  have front := hides_called [';'] table body (by decide) rfl
  cases literals with
  | nil =>
    exact endsAtSemicolon front (execute_nil _)
  | cons s literals =>
    have hidden : ∀ cs ∈ s.toList :: literals.map String.toList,
        Quoting.standard.Hides [';'].contains cs := hides_literals _ values (by decide)
    have listed := Quoting.hides_intercalate hidden (by decide) (by decide)
    have closed := Quoting.hides_append listed (c := ')') (by decide) (by decide) Quoting.hides_nil
    have called := Quoting.hides_append front (c := '(') (by decide) (by decide) closed
    refine endsAtSemicolon called ?_
    rw [execute_cons]
    simp

/-- The assignment of a literal to the variable at its position. -/
def assignment (position : Nat) (s : String) : List Char :=
  (variableName position).toList ++ ' ' :: '=' :: ' ' :: s.toList

theorem variableName_cons (position : Nat) :
    (variableName position).toList = '@' :: 'p' :: (toString position).toList := by
  simp [variableName]

/-- Something is staged only where there are assignments. -/
theorem toList_setup {text : String} (staged : mysql.setup? literals = some text) :
    ∃ x xs, literals.mapIdx assignment = x :: xs ∧
      text.toList = "SET ".toList ++ ([',', ' '].intercalate (x :: xs) ++ ';' :: []) := by
  have items : (literals.mapIdx
      fun i literal => variableName i ++ " = " ++ literal).map String.toList =
        literals.mapIdx assignment := by
    simp [List.mapIdx_eq_zipIdx_map, assignment, Function.comp_def]
  cases literals with
  | nil => cases staged
  | cons s literals =>
    cases staged
    refine ⟨_, _, List.mapIdx_cons, ?_⟩
    rw [String.toList_append, String.toList_append, String.toList_intercalate, items,
      List.append_assoc, List.mapIdx_cons]
    rfl

theorem hides_assignments (marks : List Char) (values : Literals .mysql literals)
    (apart : Separating marks) (sigil : marks.contains '@' = false)
    (blank : marks.contains ' ' = false) (sign : marks.contains '=' = false) :
    ∀ cs ∈ literals.mapIdx assignment, Quoting.escaping.Hides marks.contains cs := by
  intro cs member
  obtain ⟨position, inside, rfl⟩ := List.mem_mapIdx.mp member
  have literal : Quoting.escaping.Hides marks.contains literals[position].toList :=
    hides_literals marks values apart _ (List.mem_map_of_mem (List.getElem_mem inside))
  have number : Quoting.escaping.Hides marks.contains ('p' :: (toString position).toList) :=
    Flavor.hides_bare (separates apart) (bare_cons.mpr ⟨by decide, bare_nat position⟩)
  rw [assignment, variableName_cons]
  exact Quoting.hides_append (Quoting.hides_cons (by decide) sigil number) (by decide) blank
    (Quoting.hides_cons (by decide) sign (Quoting.hides_cons (by decide) blank literal))

theorem readAssignment_assignment (position : Nat) (solid : unindented s.toList = s.toList) :
    readAssignment (assignment position s) = ((variableName position).toList, s.toList) := by
  have word : Bare ('p' :: (toString position).toList) :=
    bare_cons.mpr ⟨by decide, bare_nat position⟩
  have plain : ∀ c ∈ 'p' :: (toString position).toList, c ≠ ' ' ∧ c ≠ '=' := by
    intro c member
    have isBare := word c member
    constructor <;> (rintro rfl; revert isBare; decide)
  have target : ∀ c ∈ (variableName position).toList, c ≠ ' ' ∧ c ≠ '=' := by
    rw [variableName_cons]
    exact List.forall_mem_cons.mpr ⟨by decide, plain⟩
  rw [assignment, readAssignment_append (by simp [variableName_cons]) target, solid]

theorem readAssignments_setup {text : String} (values : Literals .mysql literals)
    (staged : mysql.setup? literals = some text) :
    readAssignments .escaping text.toList =
      literals.mapIdx fun position s => ((variableName position).toList, s.toList) := by
  have assignments := hides_assignments [',', ';'] values (by decide) rfl rfl rfl
  obtain ⟨x, xs, listed, written⟩ := toList_setup staged
  have behind : text.toList.drop "SET ".length =
      [',', ' '].intercalate (x :: xs) ++ ';' :: [] := by
    rw [written]
    exact List.drop_left' rfl
  have each : (literals.mapIdx assignment).map readAssignment =
      literals.mapIdx fun position s => ((variableName position).toList, s.toList) := by
    rw [List.mapIdx_eq_zipIdx_map, List.mapIdx_eq_zipIdx_map, List.map_map]
    refine List.map_congr_left fun ⟨s, position⟩ member => ?_
    have known := List.mem_map_of_mem (f := String.toList) (List.fst_mem_of_mem_zipIdx member)
    exact readAssignment_assignment position (unindented_literals values _ known)
  rw [listed] at assignments each
  rw [← each, readAssignments, behind,
    Quoting.cut_intercalate assignments (by decide) (by decide) (by decide) (by decide),
    Quoting.cut_hides Quoting.hides_nil, List.dropLast_concat, List.map_cons, List.map_map]
  rfl

theorem endsAtSemicolon_setup {text : String} (values : Literals .mysql literals)
    (staged : mysql.setup? literals = some text) : EndsAtSemicolon .escaping text.toList := by
  have assignments := hides_assignments [';'] values (by decide) rfl rfl rfl
  obtain ⟨x, xs, listed, written⟩ := toList_setup staged
  rw [listed] at assignments
  have word : Quoting.escaping.Hides [';'].contains "SET".toList :=
    Flavor.hides_bare (separates (by decide)) (by decide)
  refine endsAtSemicolon (Quoting.hides_append word (c := ' ') (by decide) (by decide)
    (Quoting.hides_intercalate assignments (by decide) (by decide))) ?_
  rw [written]
  simp

/-- Arguments keep their places. Whatever the arguments hold, as long as they are no lists and
the calendar has their moments, they have literals; a server that reads the call finds just these
between the parentheses, and one that reads the assignments finds just these, each for its own
variable; both statements end with their first semicolon that is not part of a literal. -/
theorem arguments_keep_places (table body : String) {arguments : List Value}
    (alone : ∀ v ∈ arguments, v.hasItems = false) :
    (∀ f : Flavor, WrittenWhen (∀ v ∈ arguments, v.inCalendar = true)
      (arguments.mapM f.literal)) ∧
    (∀ literals, arguments.mapM Flavor.postgres.literal = .ok literals →
      readArguments .standard (postgres.execute (statementName table body) literals).toList =
          literals.map String.toList ∧
        EndsAtSemicolon .standard
          (postgres.execute (statementName table body) literals).toList) ∧
    ∀ literals, arguments.mapM Flavor.mysql.literal = .ok literals →
      (mysql.setup? literals = none ↔ arguments = []) ∧
        ∀ text, mysql.setup? literals = some text →
          readAssignments .escaping text.toList =
              literals.mapIdx (fun position s => ((variableName position).toList, s.toList)) ∧
            EndsAtSemicolon .escaping text.toList := by
  refine ⟨fun f => writtenWhen_mapM fun v _ => f.writtenWhen_literal v, fun literals written => ?_,
    fun literals written => ⟨?_, fun text staged => ?_⟩⟩
  · have values := literals_of_values alone written
    exact ⟨readArguments_execute table body values, endsAtSemicolon_execute table body values⟩
  · rw [← List.length_eq_zero_iff, ← (Outcome.mapM_ok written).1, List.length_eq_zero_iff]
    cases literals with
    | nil => simp [setup?, assign]
    | cons s literals => simp [setup?, assign]
  · have values := literals_of_values alone written
    exact ⟨readAssignments_setup values staged, endsAtSemicolon_setup values staged⟩

/-- A text that would end its literal and the statement, if it could; and no text. -/
def hostile : List Value :=
  [.varchar (some "\\'); DROP TABLE author; --"), .varchar none]

theorem hostile_keep_places : ∃ called staged text,
    hostile.mapM Flavor.postgres.literal = .ok called ∧
      readArguments .standard
          (postgres.execute (statementName "author" "SELECT 1") called).toList =
        ["'\\''); DROP TABLE author; --'".toList, "NULL".toList] ∧
      hostile.mapM Flavor.mysql.literal = .ok staged ∧ mysql.setup? staged = some text ∧
      readAssignments .escaping text.toList =
        [("@p0".toList, "'\\\\''); DROP TABLE author; --'".toList),
          ("@p1".toList, "NULL".toList)] := by
  have alone : ∀ v ∈ hostile, v.hasItems = false := by decide
  obtain ⟨_, calls, assigns⟩ := arguments_keep_places "author" "SELECT 1" alone
  exact ⟨_, _, _, rfl, (calls _ rfl).1, rfl, rfl, ((assigns _ rfl).2 _ rfl).1⟩

end Vendor

end PreparedSql
