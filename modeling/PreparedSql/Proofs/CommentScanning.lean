import PreparedSql.Proofs.SealedLiterals

/-! Comments in a statement. Servers take two minus signs in a row for the start of a comment,
except in a literal or in a quoted name. A text whose quotes are all closed can be scanned by
itself; put behind another one it opens a comment only where the two texts meet. -/
namespace PreparedSql

/-- Where a scanner for comments stands. -/
inductive Zone where
  | outside
  | literal
  /-- Behind a backslash in a literal. -/
  | escaped
  | name
  deriving DecidableEq

/-- Where the scanner for comments stands when one for literals stands there. -/
def Reading.zone : Reading → Zone
  | outside | closing => .outside
  | inside => .literal
  | escaped => .escaped

namespace Flavor

variable {f : Flavor} {z : Zone} {r : Reading} {c : Char} {cs ds ss : List Char}
  {signed signed' opens opens' : Bool}

/-- The zone behind a character. A doubled mark closes its text and opens the next one at once. -/
def enter (f : Flavor) : Zone → Char → Zone
  | .outside, c => if c = '\'' then .literal else if c = f.nameMark then .name else .outside
  | .literal, c =>
    if c = '\'' then .outside
    else if f.quoting = .escaping ∧ c = '\\' then .escaped
    else .literal
  | .escaped, _ => .literal
  | .name, c => if c = f.nameMark then .outside else .name

def zoneBehind (f : Flavor) (z : Zone) (cs : List Char) : Zone :=
  cs.foldl f.enter z

/-- Two minus signs stand in a row, outside of literals and names. -/
def opensComment (f : Flavor) : Zone → List Char → Bool
  | _, [] => false
  | z, c :: cs =>
    (z = .outside && c = '-' && cs.head? = some '-') || f.opensComment (f.enter z c) cs

theorem zoneBehind_append : f.zoneBehind z (cs ++ ds) = f.zoneBehind (f.zoneBehind z cs) ds :=
  List.foldl_append

/-- Where a minus sign does not meet another one, comments are opened in one text or the other. -/
theorem opensComment_append (apart : cs.getLast? = some '-' → ds.head? ≠ some '-') :
    f.opensComment z (cs ++ ds) =
      (f.opensComment z cs || f.opensComment (f.zoneBehind z cs) ds) := by
  induction cs generalizing z with
  | nil => rfl
  | cons c cs ih =>
    cases cs with
    | nil =>
      have unmet : (c = '-' && ds.head? = some '-') = false := by
        by_cases sign : c = '-'
        · have other := apart (by rw [sign, List.getLast?_singleton])
          simp [other]
        · simp [sign]
      simp [opensComment, zoneBehind, Bool.and_assoc, unmet]
    | cons d cs =>
      have rest := ih (z := f.enter z c) (by rwa [List.getLast?_cons_cons] at apart)
      rw [List.cons_append, opensComment, rest, opensComment, ← Bool.or_assoc]
      rfl

/-! ### Texts by themselves -/

/-- The text closes what it opens; whether it begins with a minus sign and whether it opens a
comment is known. -/
structure Scans (f : Flavor) (cs : List Char) (signed opens : Bool) : Prop where
  closed : f.zoneBehind .outside cs = .outside
  begins : decide (cs.head? = some '-') = signed
  opening : f.opensComment .outside cs = opens

/-- A text between two others that keeps the minus signs of both apart. -/
structure Parts (f : Flavor) (cs : List Char) : Prop where
  closed : f.zoneBehind .outside cs = .outside
  quiet : f.opensComment .outside cs = false
  filled : cs ≠ []
  front : cs.head? ≠ some '-'
  back : cs.getLast? ≠ some '-'

instance (f : Flavor) (cs : List Char) : Decidable (f.Parts cs) :=
  decidable_of_iff (((f.zoneBehind .outside cs = .outside ∧ f.opensComment .outside cs = false) ∧
      cs ≠ []) ∧ (cs.head? ≠ some '-' ∧ cs.getLast? ≠ some '-'))
    ⟨fun ⟨⟨⟨closed, quiet⟩, filled⟩, front, back⟩ => ⟨closed, quiet, filled, front, back⟩,
      fun ⟨closed, quiet, filled, front, back⟩ => ⟨⟨⟨closed, quiet⟩, filled⟩, front, back⟩⟩

theorem scans_nil : f.Scans [] false false :=
  ⟨rfl, by simp, rfl⟩

/-- Two texts with another one in between that keeps them apart. -/
theorem scans_join (front : f.Scans cs signed opens) (parts : f.Parts ss)
    (back : f.Scans ds signed' opens') :
    f.Scans (cs ++ (ss ++ ds)) signed (opens || opens') := by
  obtain ⟨s, ss, rfl⟩ := List.exists_cons_of_ne_nil parts.filled
  have unsigned : s ≠ '-' := by simpa using parts.front
  constructor
  · rw [zoneBehind_append, front.closed, zoneBehind_append, parts.closed, back.closed]
  · rw [← front.begins]
    cases cs <;> simp [unsigned]
  · rw [opensComment_append (by simp [unsigned]), front.closed, front.opening,
      opensComment_append (absurd · parts.back), parts.closed, parts.quiet, back.opening,
      Bool.false_or]

theorem scans_parts (parts : f.Parts cs) : f.Scans cs false false := by
  simpa using scans_join scans_nil parts scans_nil

/-- A minus sign opens a comment together with one that follows. -/
theorem scans_minus (scans : f.Scans cs signed opens) :
    f.Scans ('-' :: cs) true (signed || opens) := by
  have outside : f.enter .outside '-' = .outside := by cases f <;> rfl
  constructor
  · show f.zoneBehind (f.enter .outside '-') cs = .outside
    rw [outside, scans.closed]
  · simp
  · rw [opensComment, outside, scans.opening, scans.begins]
    simp

/-- A sign in front of a text that has none. -/
theorem scans_signed (negative : Bool) (scans : f.Scans cs false false) :
    f.Scans ((if negative then "-" else "").toList ++ cs) negative false := by
  cases negative with
  | true => exact scans_minus scans
  | false => exact scans

theorem parts_append (front : f.Parts cs) (back : f.Parts ds) : f.Parts (cs ++ ds) := by
  have scans := scans_join (scans_parts front) back scans_nil
  rw [List.append_nil] at scans
  refine ⟨scans.closed, scans.opening, by simp [front.filled], by simpa using scans.begins, ?_⟩
  have last : (cs ++ ds).getLast? = ds.getLast? := by
    rw [List.getLast?_append, List.getLast?_eq_some_getLast back.filled, Option.some_or]
  rw [last]
  exact back.back

/-! ### Literals -/

/-- Where the marks of names are hidden, both scanners go the same way. -/
theorem enter_zone (hidden : r.isOutside = true → c = '\'' ∨ c ≠ f.nameMark) :
    f.enter r.zone c = (f.quoting.step r c).zone := by
  have plain : r.isOutside = true → c ≠ '\'' → c ≠ f.nameMark := fun out bare =>
    (hidden out).resolve_left bare
  cases r with
  | outside | closing =>
    show f.enter .outside c = (if c = '\'' then Reading.inside else Reading.outside).zone
    by_cases quote : c = '\''
    · simp [enter, quote, Reading.zone]
    · simp [enter, quote, plain rfl quote, Reading.zone]
  | inside =>
    show f.enter .literal c = (if c = '\'' then Reading.closing
      else if f.quoting = .escaping ∧ c = '\\' then Reading.escaped else Reading.inside).zone
    rw [enter]
    split
    · rfl
    · split <;> rfl
  | escaped => rfl

/-- A text whose marks and minus signs are hidden in literals opens no comment. -/
theorem scans_places (hidden : ∀ c, (c, true) ∈ f.quoting.places r cs → c ≠ f.nameMark ∧ c ≠ '-') :
    f.zoneBehind r.zone cs = (f.quoting.run r cs).zone ∧ f.opensComment r.zone cs = false := by
  induction cs generalizing r with
  | nil => exact ⟨rfl, rfl⟩
  | cons c cs ih =>
    have here (out : r.isOutside = true) : c = '\'' ∨ c ≠ f.nameMark ∧ c ≠ '-' := by
      by_cases quote : c = '\''
      · exact .inl quote
      · exact .inr (hidden c (by simp [Quoting.places, out, quote]))
    have entered : f.enter r.zone c = (f.quoting.step r c).zone :=
      enter_zone fun out => (here out).imp_right And.left
    obtain ⟨zone, quiet⟩ := ih fun d member => hidden d (List.mem_cons_of_mem _ member)
    constructor
    · show f.zoneBehind (f.enter r.zone c) cs = _
      rw [entered, zone]
      rfl
    · rw [opensComment, entered, quiet, Bool.or_false]
      have unmet : ¬ (r.zone = .outside ∧ c = '-') := by
        rintro ⟨outside, rfl⟩
        cases r with
        | outside | closing => simpa using here rfl
        | inside | escaped => cases outside
      rw [← Bool.decide_and, decide_eq_false unmet, Bool.false_and]

/-- What keeps marks of names and minus signs within its quotes. -/
def marksSign (f : Flavor) (c : Char) : Bool :=
  c = f.nameMark || c = '-'

theorem scans_hides (hides : f.quoting.Hides f.marksSign cs) (unsigned : cs.head? ≠ some '-') :
    f.Scans cs false false := by
  have plain (c : Char) (bare : (c, true) ∈ f.quoting.places .outside cs) :
      c ≠ f.nameMark ∧ c ≠ '-' := by
    simpa [marksSign] using hides.hidden c bare
  obtain ⟨zone, quiet⟩ := scans_places plain
  refine ⟨?_, by simp [unsigned], quiet⟩
  show f.zoneBehind Reading.outside.zone cs = .outside
  rw [zone]
  have ends := hides.ends
  cases last : f.quoting.run .outside cs with
  | outside | closing => rfl
  | inside | escaped =>
    rw [last] at ends
    cases ends

/-! ### Names -/

private theorem nameMark_ne (f : Flavor) : f.nameMark ≠ '\'' ∧ f.nameMark ≠ '-' := by
  cases f <;> decide

/-- The mark of names opens a name and closes it. -/
theorem enter_nameMark (f : Flavor) :
    f.enter .outside f.nameMark = .name ∧ f.enter .name f.nameMark = .outside := by
  cases f <;> exact ⟨rfl, rfl⟩

/-- A name as it stands between its marks. -/
def doubled (f : Flavor) (cs : List Char) : List Char :=
  cs.flatMap fun c => if c = f.nameMark then [f.nameMark, f.nameMark] else [c]

theorem toList_identifier_doubled (f : Flavor) (name : String) :
    (f.identifier name).toList = f.nameMark :: (f.doubled name.toList ++ [f.nameMark]) :=
  Text.toList_enclosed f.nameMark name

/-- Within a name a doubled mark ends nothing. -/
theorem scans_doubled (cs ds : List Char) :
    f.zoneBehind .name (f.doubled cs ++ ds) = f.zoneBehind .name ds ∧
      f.opensComment .name (f.doubled cs ++ ds) = f.opensComment .name ds := by
  obtain ⟨unquoted, unsigned⟩ := f.nameMark_ne
  induction cs with
  | nil => exact ⟨rfl, rfl⟩
  | cons c cs ih =>
    obtain ⟨zone, quiet⟩ := ih
    rw [doubled, List.flatMap_cons, List.append_assoc, ← doubled, ← zone, ← quiet]
    split
    · simp [zoneBehind, opensComment, enter, unquoted, unsigned]
    · next other => simp [zoneBehind, opensComment, enter, other]

theorem parts_identifier (name : String) : f.Parts (f.identifier name).toList := by
  obtain ⟨_, unsigned⟩ := f.nameMark_ne
  obtain ⟨zone, quiet⟩ := scans_doubled (f := f) name.toList [f.nameMark]
  rw [toList_identifier_doubled]
  refine ⟨?_, ?_, by simp, by simp [unsigned], ?_⟩
  · show f.zoneBehind (f.enter .outside f.nameMark) _ = .outside
    rw [f.enter_nameMark.1, zone]
    simp [zoneBehind, enter]
  · rw [opensComment, f.enter_nameMark.1, quiet]
    simp [opensComment, unsigned]
  · rw [← List.cons_append, List.getLast?_concat]
    simp [unsigned]

/-- Whatever a column is called, its name opens no comment. -/
theorem parts_column (qualify : Bool) (c : ColumnRef) : f.Parts (f.column qualify c).toList := by
  have point : f.Parts ".".toList := by cases f <;> decide
  have behind (outer : List String) : f.Parts
      (String.join (outer.map fun n => f.identifier n ++ ".") ++ f.identifier c.name).toList := by
    induction outer with
    | nil => simpa using parts_identifier c.name
    | cons n outer ih =>
      have longer := parts_append (parts_append (parts_identifier n) point) ih
      simpa [String.toList_append] using longer
  unfold column
  split
  · exact behind _
  · exact parts_identifier c.name

end Flavor

end PreparedSql
