import PreparedSql.Proofs.InlinedSigns

/-! Comments that expressions open. An expression is written before its literals are in their
places, and its parentheses keep two minus signs apart only where both are written by operators. A
literal counts as an operand that needs no parentheses, so that its sign meets the one of a negation
in front of it. Here it is shown where the text of an expression opens a comment: exactly in front
of an operand without parentheses that begins with a sign. -/
namespace PreparedSql

namespace Expr

mutual

/-- The expression is written out completely: no parameter stands in it, no text copied verbatim and
no literal that lists values. -/
def isWrittenOut : Expr → Bool
  | column _ | reference _ | truth _ => true
  | literal v => !v.hasItems
  | binary _ l r => isWrittenOut l && isWrittenOut r
  | unary _ e => isWrittenOut e
  | list items => areWrittenOut items
  | cases whens otherwise => branchesWrittenOut whens && otherwiseWrittenOut otherwise
  | param _ | bound _ | raw _ | ordered _ _ => false

def areWrittenOut : List Expr → Bool
  | [] => true
  | e :: rest => isWrittenOut e && areWrittenOut rest

def branchesWrittenOut : List (Expr × Expr) → Bool
  | [] => true
  | (condition, e) :: rest => isWrittenOut condition && (isWrittenOut e && branchesWrittenOut rest)

def otherwiseWrittenOut : Option Expr → Bool
  | none => true
  | some e => isWrittenOut e

end

mutual

/-- The text of the expression begins with a minus sign. -/
def beginsSigned (w : Manner) : Expr → Bool
  | literal v => w.flavor.signs v
  | binary op l _ =>
    if op = .iexact then w.flavor = .mysql && beginsSigned w l
    else !(l.precedence < op.precedence) && beginsSigned w l
  | unary .negative _ => true
  | unary .not _ => false
  | unary op e => !(e.precedence ≤ op.precedence) && beginsSigned w e
  | list items => w.fragment = .rangeEnds && endsBeginSigned { w with fragment := .plain } items
  | _ => false

/-- The first end of a range begins with a minus sign. -/
def endsBeginSigned (w : Manner) : List Expr → Bool
  | [] => false
  | e :: _ => !(e.precedence ≤ BinaryOperator.and.precedence) && beginsSigned w e

end

mutual

/-- Somewhere in the expression an operand that is negated without parentheses begins with a minus
sign. -/
def negatesSigned (w : Manner) : Expr → Bool
  | binary op l r =>
    negatesSigned w l ||
      negatesSigned { w with fragment := if op = .between then .rangeEnds else w.fragment } r
  | unary .negative e =>
    !(e.precedence ≤ UnaryOperator.negative.precedence) && beginsSigned w e || negatesSigned w e
  | unary _ e => negatesSigned w e
  | list items =>
    itemsNegateSigned { w with fragment := if w.fragment = .rangeEnds then .plain else w.fragment }
      items
  | cases whens otherwise => branchesNegateSigned w whens || otherwiseNegatesSigned w otherwise
  | _ => false

def itemsNegateSigned (w : Manner) : List Expr → Bool
  | [] => false
  | e :: rest => negatesSigned w e || itemsNegateSigned w rest

def branchesNegateSigned (w : Manner) : List (Expr × Expr) → Bool
  | [] => false
  | (condition, e) :: rest =>
    negatesSigned w condition || (negatesSigned w e || branchesNegateSigned w rest)

def otherwiseNegatesSigned (w : Manner) : Option Expr → Bool
  | none => false
  | some e => negatesSigned w e

end

end Expr

/-! ### Pieces with their literals -/

namespace Flavor

variable {f : Flavor} {s : String} {ps qs : List Piece} {signed signed' opens opens' : Bool}

/-- The pieces are written out unless a literal leaves the calendar. With the literals in their
places they are a text of which is known whether it begins with a minus sign and whether it opens a
comment. -/
structure Inlines (f : Flavor) (ps : List Piece) (signed opens : Bool) : Prop where
  writes : WrittenWhen (∀ h ∈ Piece.holes ps, h.inCalendar = true) (Piece.fill f.literalOf ps)
  scans : ∀ text, Piece.fill f.literalOf ps = .ok text → f.Scans text.toList signed opens

theorem inlines_nil : f.Inlines [] false false where
  writes := .written (fun _ none => nomatch none) ""
  scans := by
    rintro _ ⟨⟩
    simpa using scans_nil

theorem inlines_literal {v : Value} (alone : v.hasItems = false) :
    f.Inlines [.hole (.literal v)] (f.signs v) false where
  writes := by
    rw [fill_literal]
    exact writtenWhen_congr List.forall_mem_singleton.symm (f.writtenWhen_literal v)
  scans := by
    rw [fill_literal]
    exact fun text written => scans_literal alone written

/-- Pieces on both sides of a text that keeps them apart. -/
theorem inlines_join (front : f.Inlines ps signed opens) (parts : f.Parts s.toList)
    (back : f.Inlines qs signed' opens') :
    f.Inlines (ps ++ .text s :: qs) signed (opens || opens') where
  writes := by
    have behind := Piece.writtenWhen_fill_text s back.writes
    refine writtenWhen_congr ?_ (Piece.writtenWhen_fill_append front.writes behind)
    rw [Piece.holes_append, Piece.holes_text, List.forall_mem_append]
  scans := by
    intro text filled
    obtain ⟨before, behind, first, second, rfl⟩ := Piece.fill_append_ok.mp filled
    obtain ⟨rest, last, rfl⟩ := Piece.fill_text_ok.mp second
    rw [String.toList_append, String.toList_append]
    exact scans_join (front.scans before first) parts (back.scans rest last)

/-- The pieces may stand behind any others. -/
def Continues (f : Flavor) (qs : List Piece) (opens : Bool) : Prop :=
  ∀ ⦃ps : List Piece⦄ ⦃signed opens' : Bool⦄, f.Inlines ps signed opens' →
    f.Inlines (ps ++ qs) signed (opens' || opens)

theorem continues_text (parts : f.Parts s.toList) (back : f.Inlines qs signed opens) :
    f.Continues (.text s :: qs) opens :=
  fun _ _ _ front => inlines_join front parts back

theorem inlines_behind (parts : f.Parts s.toList) (back : f.Inlines qs signed opens) :
    f.Inlines (.text s :: qs) false opens := by
  simpa using inlines_join inlines_nil parts back

theorem inlines_before (front : f.Inlines ps signed opens) (parts : f.Parts s.toList) :
    f.Inlines (ps ++ [.text s]) signed opens := by
  simpa using inlines_join front parts inlines_nil

theorem inlines_text (parts : f.Parts s.toList) : f.Inlines [.text s] false false :=
  inlines_behind parts inlines_nil

theorem inlines_minus (operand : f.Inlines ps signed opens) :
    f.Inlines (.text "-" :: ps) true (signed || opens) where
  writes := Piece.writtenWhen_fill_text "-" operand.writes
  scans := by
    intro text filled
    obtain ⟨rest, behind, rfl⟩ := Piece.fill_text_ok.mp filled
    rw [String.toList_append]
    exact scans_minus (operand.scans rest behind)

/-- Parentheses hide a sign. -/
theorem inlines_parenthesized (asked : Bool) (inner : f.Inlines ps signed opens) :
    f.Inlines (Piece.parenthesized asked ps) (!asked && signed) opens := by
  have opening : f.Parts "(".toList := by cases f <;> decide
  have closing : f.Parts ")".toList := by cases f <;> decide
  cases asked with
  | true => exact inlines_behind opening (inlines_before inner closing)
  | false => exact inner

theorem parts_between {op : BinaryOperator} (written : op.between? = some s) :
    f.Parts s.toList := by
  cases op <;> cases written <;> cases f <;> decide

theorem parts_likeWord (ignoreCase : Bool) : f.Parts (f.likeWord ignoreCase).toList := by
  cases f <;> cases ignoreCase <;> decide

/-- Wildcards stand in quotes, apart from the text between them. -/
theorem inlines_likePattern (wildcards : Bool × Bool) (precedence : Nat)
    (inner : f.Inlines ps signed opens) :
    ∃ signed, f.Inlines (f.likePattern wildcards precedence ps) signed opens := by
  have wildcard : f.Inlines [.text (f.string "%")] false false :=
    inlines_text (by cases f <;> decide)
  have separated (separator : String) (parts : f.Parts separator.toList) {qs : List Piece}
      {signed : Bool} (text : f.Inlines qs signed opens) :
      ∃ signed, f.Inlines (Piece.separated separator
        ((if wildcards.1 then [[.text (f.string "%")]] else []) ++ [qs] ++
          (if wildcards.2 then [[.text (f.string "%")]] else []))) signed opens := by
    obtain ⟨before, behind⟩ := wildcards
    have closed : f.Inlines (qs ++ .text separator :: [.text (f.string "%")]) signed opens := by
      simpa using inlines_join text parts wildcard
    cases before <;> cases behind
    · exact ⟨_, text⟩
    · exact ⟨_, closed⟩
    · exact ⟨_, inlines_join wildcard parts text⟩
    · exact ⟨_, inlines_join wildcard parts closed⟩
  cases f with
  | generic | postgres =>
    exact separated " || " (by decide) (inlines_parenthesized _ inner)
  | mysql =>
    obtain ⟨signed, listed⟩ := separated ", " (by decide) inner
    exact ⟨_, inlines_behind (by decide) (inlines_before listed (by decide))⟩

theorem inlines_sameIgnoringCase (left : f.Inlines ps signed opens)
    (right : f.Inlines qs signed' opens') :
    f.Inlines (f.sameIgnoringCase ps qs) (f = .mysql && signed) (opens || opens') := by
  cases f with
  | generic | postgres =>
    exact inlines_behind (by decide) (inlines_join left (by decide)
      (inlines_before right (by decide)))
  | mysql => exact inlines_join left (by decide) right

end Flavor

/-! ### Expressions -/

namespace Expr

open Flavor

mutual

/-- With its literals in their places, an expression opens a comment exactly where it negates an
operand that begins with a sign. -/
theorem inlines_write (w : Manner) : (e : Expr) → e.isWrittenOut →
    w.flavor.Inlines (e.write w) (e.beginsSigned w) (e.negatesSigned w)
  | column c, _ => inlines_text (parts_column w.qualify c.ref)
  | reference c, _ => inlines_text (parts_column w.qualify c)
  | truth b, _ => inlines_text (by cases w.flavor <;> cases b <;> decide)
  | literal v, out => inlines_literal (by simpa [isWrittenOut] using out)
  | binary op l r, out => by
    simp only [isWrittenOut, Bool.and_eq_true] at out
    have left := inlines_write w l out.1
    have right (w' : Manner) := inlines_write w' r out.2
    have enclosedLeft := inlines_parenthesized (l.precedence < op.precedence) left
    rw [write, beginsSigned, negatesSigned]
    cases between : op.between? with
    | some text =>
      have other : op ≠ .iexact := by
        rintro rfl
        cases between
      simp only [if_neg other]
      have behind := right
        { w with fragment := if op = .between then .rangeEnds else w.fragment }
      exact inlines_join enclosedLeft (parts_between between) (inlines_parenthesized _ behind)
    | none =>
      have other : op ≠ .between := by
        rintro rfl
        cases between
      rw [if_neg other]
      by_cases same : op = .iexact
      · rw [if_pos same]
        simp only [if_pos same]
        exact inlines_sameIgnoringCase left (right w)
      · rw [if_neg same]
        simp only [if_neg same]
        obtain ⟨signed, pattern⟩ := inlines_likePattern op.wildcards r.precedence (right w)
        exact inlines_join enclosedLeft (parts_likeWord _) pattern
  | unary op e, out => by
    have inner := inlines_write w e out
    have operand := inlines_parenthesized (e.precedence ≤ op.precedence) inner
    have parts (s : String) (closed : ∀ f : Flavor, f.Parts s.toList) : w.flavor.Parts s.toList :=
      closed w.flavor
    cases op with
    | negative => exact inlines_minus operand
    | not => exact inlines_behind (parts _ fun f => by cases f <;> decide) operand
    | isNull => exact inlines_before operand (parts _ fun f => by cases f <;> decide)
    | isNotNull => exact inlines_before operand (parts _ fun f => by cases f <;> decide)
  | list items, out => by
    simp only [write, beginsSigned, negatesSigned]
    by_cases ends : w.fragment = .rangeEnds
    · rw [if_pos ends, if_pos ends, decide_eq_true ends, Bool.true_and]
      exact inlines_writeEnds { w with fragment := .plain } items out
    · rw [if_neg ends, if_neg ends, decide_eq_false ends, Bool.false_and]
      cases items with
      | nil => exact inlines_text (by cases w.flavor <;> decide)
      | cons e rest =>
        obtain ⟨signed, listed⟩ := inlines_writeItems w (e :: rest) out
        exact inlines_behind (by cases w.flavor <;> decide)
          (inlines_before listed (by cases w.flavor <;> decide))
  | cases whens otherwise, out => by
    simp only [isWrittenOut, Bool.and_eq_true] at out
    have opening : w.flavor.Inlines [.text "CASE"] false false :=
      inlines_text (by cases w.flavor <;> decide)
    exact continues_branches w whens out.1 (continues_otherwise w otherwise out.2) opening
  | param _, out | bound _, out | raw _, out | ordered _ _, out => by simp [isWrittenOut] at out

theorem inlines_writeItems (w : Manner) : (items : List Expr) → areWrittenOut items →
    ∃ signed, w.flavor.Inlines (Piece.separated ", " (writeItems w items)) signed
      (itemsNegateSigned w items)
  | [], _ => ⟨_, inlines_nil⟩
  | e :: rest, out => by
    simp only [areWrittenOut, Bool.and_eq_true] at out
    have first := inlines_write w e out.1
    obtain ⟨signed, others⟩ := inlines_writeItems w rest out.2
    cases rest with
    | nil =>
      rw [itemsNegateSigned, itemsNegateSigned, Bool.or_false]
      exact ⟨_, first⟩
    | cons e' rest => exact ⟨_, inlines_join first (by cases w.flavor <;> decide) others⟩

theorem inlines_writeEnds (w : Manner) : (items : List Expr) → areWrittenOut items →
    w.flavor.Inlines (Piece.separated " AND " (writeEnds w items)) (endsBeginSigned w items)
      (itemsNegateSigned w items)
  | [], _ => inlines_nil
  | e :: rest, out => by
    simp only [areWrittenOut, Bool.and_eq_true] at out
    have first := inlines_parenthesized (e.precedence ≤ BinaryOperator.and.precedence)
      (inlines_write w e out.1)
    have others := inlines_writeEnds w rest out.2
    cases rest with
    | nil =>
      rw [itemsNegateSigned, itemsNegateSigned, Bool.or_false]
      exact first
    | cons e' rest => exact inlines_join first (by cases w.flavor <;> decide) others

theorem continues_branches (w : Manner) {ps : List Piece} {opens : Bool} :
    (whens : List (Expr × Expr)) → branchesWrittenOut whens → w.flavor.Continues ps opens →
      w.flavor.Continues (writeBranches w whens ++ ps) (branchesNegateSigned w whens || opens)
  | [], _, behind => behind
  | (condition, e) :: rest, out, behind => by
    simp only [branchesWrittenOut, Bool.and_eq_true] at out
    have tested := inlines_write w condition out.1
    have others := continues_branches w rest out.2.2 behind (inlines_write w e out.2.1)
    have branches : w.flavor.Inlines (write w condition ++ .text " THEN " :: _) _ _ :=
      inlines_join tested (by cases w.flavor <;> decide) others
    have branch : w.flavor.Continues (.text " WHEN " :: _) _ :=
      continues_text (by cases w.flavor <;> decide) branches
    simpa only [writeBranches, branchesNegateSigned, List.cons_append, List.append_assoc,
      Bool.or_assoc] using branch

theorem continues_otherwise (w : Manner) : (otherwise : Option Expr) →
    otherwiseWrittenOut otherwise →
      w.flavor.Continues (writeOtherwise w otherwise ++ [.text " END"])
        (otherwiseNegatesSigned w otherwise)
  | none, _ => continues_text (by cases w.flavor <;> decide) inlines_nil
  | some e, out => continues_text (by cases w.flavor <;> decide)
      (inlines_before (inlines_write w e out) (by cases w.flavor <;> decide))

end

/-- An expression is written out unless a literal of it leaves the calendar at UTC. The text with
its literals in place opens a comment just where the expression negates an operand that is written
without parentheses and begins with a minus sign. -/
theorem inlined_opensComment (w : Manner) {e : Expr} (out : e.isWrittenOut) :
    WrittenWhen (e.inCalendar = true) ((Template.ofPieces (e.write w)).inline w.flavor) ∧
    ∀ text, (Template.ofPieces (e.write w)).inline w.flavor = .ok text →
      w.flavor.opensComment .outside text.toList = e.negatesSigned w := by
  have inlines := inlines_write w e out
  rw [inline_ofPieces]
  refine ⟨writtenWhen_congr ?_ inlines.writes, fun text filled => (inlines.scans text filled).opening⟩
  rw [holes_write, Leaf.inCalendar_flatMap]
  rfl

/-- A negation of a literal that is negative already. -/
def minusMinusFive : Expr :=
  .unary .negative (.literal (.int .int32 (some ⟨-5, by decide⟩)))

theorem minusMinusFive_inlined :
    minusMinusFive.isWrittenOut ∧
      ∃ text, (Template.ofPieces (minusMinusFive.write { flavor := .postgres })).inline .postgres =
          .ok text ∧
        postgres.opensComment .outside text.toList = true := by
  obtain ⟨writes, opens⟩ :=
    @inlined_opensComment { flavor := .postgres } minusMinusFive (by decide)
  obtain ⟨text, inlined⟩ := written_of_holds writes (by decide)
  exact ⟨by decide, text, inlined, opens text inlined⟩

/-- What is written for it is a comment, while the negation of a negated column is no comment. -/
theorem minusMinusFive_opensComment :
    (Template.ofPieces (minusMinusFive.write { flavor := .postgres })).inline .postgres =
        .ok "--5" ∧
      postgres.opensComment .outside "--5".toList = true := by
  refine ⟨?_, by decide⟩
  rw [Template.inline, Template.fill_ofPieces]
  rfl

end Expr

end PreparedSql
