import PreparedSql.Proofs.ExpressionLeaves
import PreparedSql.Proofs.TemplateFilling
import PreparedSql.Sql.Statement

/-! Holes never touch. Whatever is written, in every flavor and every fragment,
some text stands between two holes, and some text in front of the first one of
every clause. The offsets of a statement therefore increase from hole to hole,
and each lies between two characters of its text. -/
namespace PreparedSql

namespace Piece

/-- Some text stands in front of the first hole, if there is a hole. -/
def Led : List Piece → Prop
  | [] => True
  | text s :: rest => s ≠ "" ∨ Led rest
  | hole _ :: _ => False

/-- Some text stands between every hole and the next one. -/
def Spaced : List Piece → Prop
  | [] => True
  | text _ :: rest => Spaced rest
  | hole _ :: rest => Led rest ∧ Spaced rest

/-! ### Pieces behind one another -/

section
variable {ps qs : List Piece} {s : String}

@[simp] theorem led_nil : Led [] := trivial

@[simp] theorem led_text : Led (.text s :: ps) ↔ s ≠ "" ∨ Led ps := Iff.rfl

@[simp] theorem spaced_nil : Spaced [] := trivial

@[simp] theorem spaced_text : Spaced (.text s :: ps) ↔ Spaced ps := Iff.rfl

@[simp] theorem spaced_hole {h : Hole} : Spaced (.hole h :: ps) ↔ Led ps ∧ Spaced ps := Iff.rfl

theorem led_append (first : Led ps) (second : Led qs) : Led (ps ++ qs) := by
  induction ps with
  | nil => exact second
  | cons p ps ih =>
    cases p with
    | text s => exact first.imp id ih
    | hole h => exact first.elim

/-- What is led by text may stand behind any hole. -/
theorem spaced_append (first : Spaced ps) (second : Spaced qs) (led : Led qs) :
    Spaced (ps ++ qs) := by
  induction ps with
  | nil => exact second
  | cons p ps ih =>
    cases p with
    | text s => exact ih first
    | hole h => exact ⟨led_append first.1 led, ih first.2⟩

/-- Two spaced writings with a word between them. -/
theorem spaced_joined (first : Spaced ps) (second : Spaced qs) (word : s ≠ "") :
    Spaced (ps ++ .text s :: qs) :=
  spaced_append first second (.inl word)

theorem spaced_parenthesized (asked : Bool) (inside : Spaced ps) :
    Spaced (parenthesized asked ps) := by
  cases asked with
  | false => exact inside
  | true => exact spaced_joined inside spaced_nil (by decide)

theorem spaced_separated {separator : String} {pss : List (List Piece)} (word : separator ≠ "")
    (each : ∀ ps ∈ pss, Spaced ps) : Spaced (separated separator pss) := by
  induction pss with
  | nil => exact spaced_nil
  | cons ps rest ih =>
    have behind := ih fun qs member => each qs (List.mem_cons_of_mem _ member)
    cases rest with
    | nil => exact each ps List.mem_cons_self
    | cons qs rest => exact spaced_joined (each ps List.mem_cons_self) behind word

end

/-! ### Offsets -/

/-- The offsets of the holes, the first piece lying at `start`. -/
def offsetsFrom (start : Nat) (ps : List Piece) : List Nat :=
  (holesFrom start ps).map (·.1)

@[simp] theorem offsetsFrom_text (start : Nat) (s : String) (ps : List Piece) :
    offsetsFrom start (.text s :: ps) = offsetsFrom (start + s.utf8ByteSize) ps := rfl

@[simp] theorem offsetsFrom_hole (start : Nat) (h : Hole) (ps : List Piece) :
    offsetsFrom start (.hole h :: ps) = start :: offsetsFrom start ps := rfl

theorem le_offset {start offset : Nat} (ps : List Piece) (member : offset ∈ offsetsFrom start ps) :
    start ≤ offset := by
  induction ps generalizing start with
  | nil => cases member
  | cons p ps ih =>
    cases p with
    | text s => exact Nat.le_trans (Nat.le_add_right _ _) (ih member)
    | hole h =>
      rcases List.mem_cons.mp member with here | later
      · exact Nat.le_of_eq here.symm
      · exact ih later

private theorem size_pos {s : String} (word : s ≠ "") : 0 < s.utf8ByteSize := by
  rw [Nat.pos_iff_ne_zero, ne_eq, String.utf8ByteSize_eq_zero_iff]
  exact word

theorem lt_offset {start offset : Nat} {ps : List Piece} (led : Led ps)
    (member : offset ∈ offsetsFrom start ps) : start < offset := by
  induction ps generalizing start with
  | nil => cases member
  | cons p ps ih =>
    cases p with
    | text s =>
      rcases led with word | behind
      · have := size_pos word
        have := le_offset ps member
        omega
      · exact Nat.lt_of_le_of_lt (Nat.le_add_right _ _) (ih behind member)
    | hole h => exact led.elim

/-- Offsets increase from hole to hole where holes do not touch. -/
theorem offsets_increase {ps : List Piece} (spaced : Spaced ps) (start : Nat) :
    (offsetsFrom start ps).Pairwise (· < ·) := by
  induction ps generalizing start with
  | nil => exact List.Pairwise.nil
  | cons p ps ih =>
    cases p with
    | text s => exact ih spaced _
    | hole h =>
      exact List.pairwise_cons.mpr ⟨fun _ member => lt_offset spaced.1 member, ih spaced.2 start⟩

/-- An offset lies between two characters; `front` is the text in front of the
pieces. -/
theorem offset_isValid {offset : Nat} (front : String) (ps : List Piece)
    (member : offset ∈ offsetsFrom front.utf8ByteSize ps) :
    String.Pos.Raw.IsValid (front ++ texts ps) ⟨offset⟩ := by
  induction ps generalizing front with
  | nil => cases member
  | cons p ps ih =>
    cases p with
    | text s =>
      rw [offsetsFrom_text, ← String.utf8ByteSize_append] at member
      rw [texts, ← String.append_assoc]
      exact ih _ member
    | hole h =>
      rcases List.mem_cons.mp member with here | later
      · rw [here]
        exact String.Pos.Raw.isValid_iff_exists_append.mpr ⟨front, _, rfl, rfl⟩
      · exact ih front later

end Piece

open Piece

/-! ### Expressions -/

theorem Param.spaced_write (p : Param) : Spaced p.write := by
  unfold Param.write
  split
  · refine spaced_text.mpr (spaced_joined (spaced_separated (by decide) fun ps member => ?_)
      spaced_nil (by decide))
    obtain ⟨i, _, rfl⟩ := List.mem_map.mp member
    exact ⟨led_nil, spaced_nil⟩
  · exact ⟨led_nil, spaced_nil⟩

theorem Bound.spaced_write (b : Bound) : Spaced b.write := by
  cases b with
  | row n => exact spaced_nil
  | param p => exact p.spaced_write

namespace BinaryOperator

theorem between?_ne_empty {op : BinaryOperator} {word : String} (written : op.between? = some word) :
    word ≠ "" := by
  cases op <;> cases written <;> decide

end BinaryOperator

namespace Flavor

theorem likeWord_ne_empty (f : Flavor) (ignoreCase : Bool) : f.likeWord ignoreCase ≠ "" := by
  cases f <;> cases ignoreCase <;> decide

private theorem spaced_wildcard {f : Flavor} {asked : Bool} {ps : List Piece}
    (member : ps ∈ if asked then [[Piece.text (f.string "%")]] else []) : Spaced ps := by
  cases asked with
  | false => cases member
  | true =>
    rw [List.mem_singleton.mp member]
    exact spaced_nil

theorem spaced_likePattern (f : Flavor) (wildcards : Bool × Bool) (precedence : Nat)
    {ps : List Piece} (inside : Spaced ps) : Spaced (f.likePattern wildcards precedence ps) := by
  have between {qs : List Piece} (text : Spaced qs) : ∀ rs ∈
      (if wildcards.1 then [[Piece.text (f.string "%")]] else []) ++ [qs] ++
        (if wildcards.2 then [[Piece.text (f.string "%")]] else []), Spaced rs := by
    intro rs member
    rcases List.mem_append.mp member with member | behind
    · rcases List.mem_append.mp member with ahead | own
      · exact spaced_wildcard ahead
      · rw [List.mem_singleton.mp own]
        exact text
    · exact spaced_wildcard behind
  cases f with
  | generic | postgres =>
    exact spaced_separated (by decide) (between (spaced_parenthesized _ inside))
  | mysql =>
    exact spaced_text.mpr (spaced_joined (spaced_separated (by decide) (between inside))
      spaced_nil (by decide))

theorem spaced_sameIgnoringCase (f : Flavor) {left right : List Piece} (first : Spaced left)
    (second : Spaced right) : Spaced (f.sameIgnoringCase left right) := by
  cases f with
  | generic | postgres =>
    have closed := spaced_joined second spaced_nil (s := ")") (by decide)
    exact spaced_text.mpr (spaced_joined first closed (by decide))
  | mysql => exact spaced_joined first second (by decide)

end Flavor

namespace Expr

theorem led_writeBranches (w : Manner) (whens : List (Expr × Expr)) :
    Led (writeBranches w whens) := by
  cases whens with
  | nil => exact led_nil
  | cons branch rest => exact .inl (by decide)

theorem led_writeOtherwise (w : Manner) (otherwise : Option Expr) :
    Led (writeOtherwise w otherwise) := by
  cases otherwise with
  | none => exact led_nil
  | some e => exact .inl (by decide)

mutual

/-- The holes of a written expression do not touch. -/
theorem spaced_write (w : Manner) : (e : Expr) → Spaced (e.write w)
  | column _ | reference _ | truth _ | raw _ => spaced_nil
  | literal _ => ⟨led_nil, spaced_nil⟩
  | param p => p.spaced_write
  | bound b => b.spaced_write
  | binary op l r => by
    have left := spaced_parenthesized (l.precedence < op.precedence) (spaced_write w l)
    rw [write]
    split
    · next word written =>
      exact spaced_joined left (spaced_parenthesized _ (spaced_write _ r))
        (BinaryOperator.between?_ne_empty written)
    · dsimp only
      split
      · exact Flavor.spaced_sameIgnoringCase _ (spaced_write w l) (spaced_write w r)
      · exact spaced_joined left (Flavor.spaced_likePattern _ _ _ (spaced_write w r))
          (Flavor.likeWord_ne_empty _ _)
  | unary op e => by
    have operand := spaced_parenthesized (e.precedence ≤ op.precedence) (spaced_write w e)
    cases op with
    | negative | not => exact spaced_text.mpr operand
    | isNull | isNotNull => exact spaced_joined operand spaced_nil (by decide)
  | list items => by
    rw [write]
    split
    · exact spaced_separated (by decide) (spaced_writeEnds _ items)
    · split
      · exact spaced_nil
      · exact spaced_text.mpr (spaced_joined
          (spaced_separated (by decide) (spaced_writeItems w items)) spaced_nil (by decide))
  | cases whens otherwise => by
    have last := spaced_joined (spaced_writeOtherwise w otherwise) spaced_nil (s := " END")
      (by decide)
    exact spaced_text.mpr (spaced_append (spaced_writeBranches w whens) last
      (led_append (led_writeOtherwise w otherwise) (.inl (by decide))))
  | ordered order e => by
    rw [write]
    split
    · next listed =>
      have word : " " ++ order.text ≠ "" := by cases order <;> decide
      exact spaced_joined (spaced_write w e) spaced_nil word
    · rw [List.append_nil]
      exact spaced_write w e

theorem spaced_writeItems (w : Manner) : (es : List Expr) → ∀ ps ∈ writeItems w es, Spaced ps
  | [], _, member => by cases member
  | e :: rest, ps, member => by
    rcases List.mem_cons.mp member with first | later
    · rw [first]
      exact spaced_write w e
    · exact spaced_writeItems w rest ps later

theorem spaced_writeEnds (w : Manner) : (es : List Expr) → ∀ ps ∈ writeEnds w es, Spaced ps
  | [], _, member => by cases member
  | e :: rest, ps, member => by
    rcases List.mem_cons.mp member with first | later
    · rw [first]
      exact spaced_parenthesized _ (spaced_write w e)
    · exact spaced_writeEnds w rest ps later

theorem spaced_writeBranches (w : Manner) : (whens : List (Expr × Expr)) →
    Spaced (writeBranches w whens)
  | [] => spaced_nil
  | (condition, e) :: rest => by
    have behind := spaced_append (spaced_write w e) (spaced_writeBranches w rest)
      (led_writeBranches w rest)
    exact spaced_text.mpr (spaced_joined (spaced_write w condition) behind (by decide))

theorem spaced_writeOtherwise (w : Manner) : (otherwise : Option Expr) →
    Spaced (writeOtherwise w otherwise)
  | none => spaced_nil
  | some e => spaced_text.mpr (spaced_write w e)

end

end Expr

/-! ### Statements -/

namespace Flavor

variable (f : Flavor)

/-- A clause begins with a word, so that it may stand behind any hole. -/
def Clause (ps : List Piece) : Prop :=
  Led ps ∧ Spaced ps

theorem clause_whereClause (condition : Option Expr) : Clause (f.whereClause condition) := by
  cases condition with
  | none => exact ⟨led_nil, spaced_nil⟩
  | some e => exact ⟨.inl (by decide), spaced_text.mpr (e.spaced_write _)⟩

theorem clause_orderClause (orderBy : List Expr) : Clause (f.orderClause orderBy) := by
  unfold orderClause
  split
  · exact ⟨led_nil, spaced_nil⟩
  · refine ⟨.inl (by decide), spaced_text.mpr (spaced_separated (by decide) fun ps member => ?_)⟩
    obtain ⟨e, _, rfl⟩ := List.mem_map.mp member
    exact e.spaced_write _

theorem clause_window (low : Bound) (high : Option Bound) : Clause (f.window low high) := by
  have limited {ps : List Piece} (spaced : Spaced ps) : Clause (.text "\nLIMIT " :: ps) :=
    ⟨.inl (by decide), spaced_text.mpr spaced⟩
  unfold window
  split
  · split
    · exact ⟨led_nil, spaced_nil⟩
    · refine ⟨.inl ?_, spaced_text.mpr (Bound.spaced_write _)⟩
      cases f <;> decide
  · refine ⟨.inl (by simp [String.append_eq_empty_iff]), spaced_text.mpr ?_⟩
    split <;> exact spaced_nil
  · split
    · exact limited (Bound.spaced_write _)
    · exact limited ⟨.inl (by decide), spaced_text.mpr (Bound.spaced_write _)⟩

theorem spaced_projected (column : Expr × Option String) : Spaced (f.projected column) := by
  obtain ⟨e, alias_⟩ := column
  cases alias_ with
  | none =>
    rw [projected, List.append_nil]
    exact e.spaced_write _
  | some name =>
    exact spaced_joined (e.spaced_write _) spaced_nil (by simp [String.append_eq_empty_iff])

/-- The holes of a selection do not touch. -/
theorem spaced_select (s : Selection) : Spaced (f.select s) := by
  have columns : ∀ ps ∈ s.columns.map f.projected, Spaced ps := by
    intro ps member
    obtain ⟨column, _, rfl⟩ := List.mem_map.mp member
    exact f.spaced_projected column
  obtain ⟨conditionLed, condition⟩ := f.clause_whereClause s.condition
  obtain ⟨orderLed, order⟩ := f.clause_orderClause s.orderBy
  obtain ⟨windowLed, window⟩ := f.clause_window s.low s.high
  have behind := spaced_append condition (spaced_append order window windowLed)
    (led_append orderLed windowLed)
  exact spaced_text.mpr (spaced_joined (spaced_separated (by decide) columns) behind
    (by simp [String.append_eq_empty_iff]))

theorem spaced_selectCount (s : Selection) : Spaced (f.selectCount s) := by
  unfold selectCount
  split
  · exact spaced_text.mpr (spaced_joined (f.spaced_select s) spaced_nil
      (by simp [String.append_eq_empty_iff]))
  · exact f.spaced_select _

theorem spaced_update (t : TableRef) (assignments : List (Column × Expr))
    (condition : Option Expr) : Spaced (f.update t assignments condition) := by
  have assigned : ∀ ps ∈ assignments.map f.assignment, Spaced ps := by
    intro ps member
    obtain ⟨a, _, rfl⟩ := List.mem_map.mp member
    exact spaced_text.mpr (a.2.spaced_write _)
  obtain ⟨led, spaced⟩ := f.clause_whereClause condition
  exact spaced_text.mpr (spaced_append (spaced_separated (by decide) assigned) spaced led)

theorem spaced_delete (t : TableRef) (condition : Option Expr) : Spaced (f.delete t condition) :=
  spaced_text.mpr (f.clause_whereClause condition).2

end Flavor

end PreparedSql
