import PreparedSql.Prepared.Vendor
import PreparedSql.Proofs.SealedLiterals

/-! Reading quoted texts back. A server takes a quoted text from its opening mark up to the first
mark that has no second one behind it; a doubled mark stands for one, and where backslashes escape,
a backslash and the character behind it stand for what the server's rules say. Every writer of
quoted texts is undone by this reading, which stops right behind what was written, so a text that
is quoted twice, as the body of a statement to prepare, comes back with its own literals intact. -/
namespace PreparedSql

namespace Quoting

variable {q : Quoting} {mark : Char} {cs piece meaning : List Char}

/-- What a backslash and the character behind it stand for. In front of a wildcard the backslash
stays, for the pattern to read. -/
def unescaped (c : Char) : List Char :=
  match c with
  | '0' => ['\x00']
  | 'b' => ['\x08']
  | 'n' => ['\n']
  | 'r' => ['\r']
  | 't' => ['\t']
  | 'Z' => ['\x1a']
  | '%' | '_' => ['\\', c]
  | _ => [c]

/-- What has been read goes in front of what is read next. -/
def behind (front : List Char) : List Char × List Char → List Char × List Char
  | (text, rest) => (front ++ text, rest)

/-- Reads up to the mark that closes the text; gives the text and what stands behind the mark. -/
def readInside? (q : Quoting) (mark : Char) : List Char → Option (List Char × List Char)
  | [] => none
  | [c] => if c = mark then some ([], []) else none
  | c :: d :: rest =>
    if c = mark then
      if d = mark then (q.readInside? mark rest).map (behind [mark]) else some ([], d :: rest)
    else if q = .escaping ∧ c = '\\' then (q.readInside? mark rest).map (behind (unescaped d))
    else (q.readInside? mark (d :: rest)).map (behind [c])

/-- Reads a quoted text from the front; gives the text and what stands behind it. -/
def read? (q : Quoting) (mark : Char) : List Char → Option (List Char × List Char)
  | [] => none
  | c :: rest => if c = mark then q.readInside? mark rest else none

/-- Within quotes the piece is read as the meaning, whatever comes behind it. -/
def Means (q : Quoting) (mark : Char) (piece meaning : List Char) : Prop :=
  ∀ cs, q.readInside? mark (piece ++ cs) = (q.readInside? mark cs).map (behind meaning)

theorem means_doubled : q.Means mark [mark, mark] [mark] := by
  intro cs
  simp [readInside?]

/-- A character that neither closes the text nor escapes stands for itself. -/
theorem means_plain {c : Char} (open_ : c ≠ mark) (plain : q = .standard ∨ c ≠ '\\') :
    q.Means mark [c] [c] := by
  have unescaping : ¬ (q = .escaping ∧ c = '\\') := by
    rintro ⟨rfl, rfl⟩
    simp at plain
  intro cs
  cases cs with
  | nil => simp [readInside?, open_]
  | cons d rest => simp [readInside?, open_, unescaping]

theorem means_escape (c : Char) (sparing : mark ≠ '\\') :
    escaping.Means mark ['\\', c] (unescaped c) := by
  intro cs
  simp [readInside?, sparing.symm]

/-- What is written piece by piece is read piece by piece. -/
theorem means_flatMap {α : Type} {write mean : α → List Char} {xs : List α}
    (each : ∀ x ∈ xs, q.Means mark (write x) (mean x)) :
    q.Means mark (xs.flatMap write) (xs.flatMap mean) := by
  induction xs with
  | nil =>
    intro cs
    have nothing : behind [] = id := rfl
    rw [List.flatMap_nil, List.nil_append, List.flatMap_nil, nothing, Option.map_id, id]
  | cons x xs ih =>
    obtain ⟨first, others⟩ := List.forall_mem_cons.mp each
    intro cs
    have joined (front back : List Char) : behind front ∘ behind back = behind (front ++ back) := by
      funext read
      simp [behind]
    rw [List.flatMap_cons, List.append_assoc, first, ih others, Option.map_map, joined,
      List.flatMap_cons]

theorem means_text (plain : ∀ c ∈ cs, c ≠ mark ∧ (q = .standard ∨ c ≠ '\\')) :
    q.Means mark cs cs := by
  have each : q.Means mark (cs.flatMap fun c => [c]) (cs.flatMap fun c => [c]) :=
    means_flatMap fun c member => means_plain (plain c member).1 (plain c member).2
  simpa using each

/-- Between its marks a piece is read as what it means, and no further than the second mark unless
another one follows. -/
theorem read?_marked {rest : List Char} (means : q.Means mark piece meaning)
    (apart : rest.head? ≠ some mark) :
    q.read? mark (mark :: (piece ++ mark :: rest)) = some (meaning, rest) := by
  have closed : q.readInside? mark (mark :: rest) = some ([], rest) := by
    cases rest with
    | nil => simp [readInside?]
    | cons d rest =>
      have other : d ≠ mark := by simpa using apart
      simp [readInside?, other]
  rw [read?, if_pos rfl, means, closed]
  simp [behind]

end Quoting

/-! ### Writers of quoted texts -/

namespace Flavor

variable {rest : List Char}

/-- A text between marks is read back by a server that only knows doubled marks. -/
theorem read?_enclosed (mark : Char) (s : String) (apart : rest.head? ≠ some mark) :
    Quoting.standard.read? mark ((Text.enclosed mark s).toList ++ rest) =
      some (s.toList, rest) := by
  have means : Quoting.standard.Means mark
      (s.toList.flatMap fun c => if c = mark then [mark, mark] else [c]) s.toList := by
    have each : Quoting.standard.Means mark
        (s.toList.flatMap fun c => if c = mark then [mark, mark] else [c])
        (s.toList.flatMap fun c => [c]) := by
      refine Quoting.means_flatMap fun c _ => ?_
      split
      · next same =>
        rw [same]
        exact Quoting.means_doubled
      · next other => exact Quoting.means_plain other (.inl rfl)
    simpa using each
  rw [Text.toList_enclosed, List.cons_append, List.append_assoc, List.singleton_append]
  exact Quoting.read?_marked means apart

/-- Each character that is written in an escaped form is read as itself. -/
theorem means_mysqlChar (c : Char) : Quoting.escaping.Means '\'' (mysqlChar c) [c] := by
  unfold mysqlChar
  split
  · next quote =>
    rw [quote]
    exact Quoting.means_doubled
  · next open_ =>
    split
    · next backslash =>
      rw [backslash]
      exact Quoting.means_escape '\\' (by decide)
    · next plain =>
      split
      · next zero =>
        rw [zero]
        exact Quoting.means_escape '0' (by decide)
      · exact Quoting.means_plain open_ (.inr plain)

/-- The literal of a text is read back under the rules of its own server. -/
theorem read?_string (f : Flavor) (s : String) (apart : rest.head? ≠ some '\'') :
    f.quoting.read? '\'' ((f.string s).toList ++ rest) = some (s.toList, rest) := by
  cases f with
  | generic | postgres => exact read?_enclosed '\'' s apart
  | mysql =>
    have means : Quoting.escaping.Means '\'' (s.toList.flatMap mysqlChar) s.toList := by
      have each : Quoting.escaping.Means '\'' (s.toList.flatMap mysqlChar)
          (s.toList.flatMap fun c => [c]) :=
        Quoting.means_flatMap fun c _ => means_mysqlChar c
      simpa using each
    have written : (mysql.string s).toList ++ rest =
        '\'' :: (s.toList.flatMap mysqlChar ++ '\'' :: rest) := by
      simp [string, single]
    rw [written]
    exact Quoting.read?_marked means apart

/-- The text that a literal hands over: what stands between its quotes, or the literal itself
where it has none. -/
def payload (f : Flavor) (literal : String) : String :=
  match f.quoting.read? '\'' literal.toList with
  | some (text, []) => String.ofList text
  | _ => literal

theorem payload_single {f : Flavor} {s : String}
    (plain : ∀ c ∈ s.toList, c ≠ '\'' ∧ (f.quoting = .standard ∨ c ≠ '\\')) :
    f.payload (single s) = s := by
  have read : f.quoting.read? '\'' (single s).toList = some (s.toList, []) := by
    rw [toList_single]
    exact Quoting.read?_marked (Quoting.means_text plain) (by simp)
  rw [payload, read]
  exact String.ofList_toList

theorem payload_quotable (f : Flavor) {s : String} (quotable : Text.Quotable s.toList) :
    f.payload (single s) = s :=
  payload_single fun c member => ⟨(quotable c member).1, .inr (quotable c member).2⟩

/-- What does not begin with a quote hands over itself. -/
theorem payload_unquoted (f : Flavor) {literal : String}
    (unquoted : literal.toList.head? ≠ some '\'') : f.payload literal = literal := by
  have unread : f.quoting.read? '\'' literal.toList = none := by
    cases listed : literal.toList with
    | nil => rfl
    | cons c rest =>
      have other : c ≠ '\'' := by simpa [listed] using unquoted
      simp [Quoting.read?, other]
  rw [payload, unread]

/-- Quoting is undone by reading. Under the rules of its server the literal of any text is read as
just that text, a quoted name as just that name, and neither reading goes beyond what was written.
So the operand of a prepared statement that stands in quotes is the body itself, also where the
body holds literals with escapes of its own. -/
theorem quoted_reads_back (f : Flavor) (s : String) :
    (∀ rest : List Char, rest.head? ≠ some '\'' →
      f.quoting.read? '\'' ((f.string s).toList ++ rest) = some (s.toList, rest)) ∧
    (∀ rest : List Char, rest.head? ≠ some f.nameMark →
      Quoting.standard.read? f.nameMark ((f.identifier s).toList ++ rest) =
        some (s.toList, rest)) ∧
    ∀ name types, ∃ operand : List Char,
      (Vendor.mysql.prepare name types s).toList =
          ("PREPARE " ++ name ++ " FROM ").toList ++ operand ∧
        mysql.quoting.read? '\'' operand = some (s.toList, [';']) := by
  refine ⟨fun rest apart => read?_string f s apart,
    fun rest apart => read?_enclosed f.nameMark s apart, fun name types => ?_⟩
  refine ⟨(mysql.string s).toList ++ [';'], ?_, read?_string mysql s (by decide)⟩
  simp [Vendor.prepare]

/-- A body with a doubled quote and a backslash in its own literals, named by what would close
both kinds of names. -/
theorem escaped_body_reads_back :
    mysql.quoting.read? '\'' ((mysql.string "SELECT 'it''s', '\\\\'").toList ++ [';']) =
        some ("SELECT 'it''s', '\\\\'".toList, [';']) ∧
      Quoting.standard.read? '\x60' ((mysql.identifier "a\x60b\"c").toList ++ [' ']) =
        some ("a\x60b\"c".toList, [' ']) :=
  ⟨(quoted_reads_back mysql "SELECT 'it''s', '\\\\'").1 [';'] (by decide),
    (quoted_reads_back mysql "a\x60b\"c").2.1 [' '] (by decide)⟩

end Flavor

end PreparedSql
