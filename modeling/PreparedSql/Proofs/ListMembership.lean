import PreparedSql.Library.Author
import PreparedSql.Proofs.ActionRuns
import PreparedSql.Proofs.NullPadding
import PreparedSql.Proofs.OpenedComments
import PreparedSql.Query.Basic

/-! Columns among literals. A test whether a column is in a list says the same of a row as the
comparisons with its items, and its negation the opposite: as long as there are items. No database
takes a list of nothing, so one is written that holds NULL. The test then selects no row, as it
should. But it is not false, it is in doubt, and so is its negation, which selects no row either. -/
namespace PreparedSql

/-- Values as they are listed in parentheses, where all have literals. -/
def Flavor.listText (f : Flavor) (vs : List Value) : Except Failure String :=
  (vs.mapM f.literal).map fun texts => "(" ++ String.intercalate ", " texts ++ ")"

namespace Comparison

variable {c : Comparison} {x : Value} {vs : List Value}

private theorem test_known {v : Value} (present : x.isNull = false) (known : v.isNull = false) :
    c.test .equal x v = c .equal x v := by
  simp [test, present, known]

/-- A value is among others that are there when one of them equals it. -/
theorem among_eq_yes (present : x.isNull = false) (known : ∀ v ∈ vs, v.isNull = false) :
    c.among x vs = .yes ↔ ∃ v ∈ vs, c .equal x v = .yes := by
  induction vs with
  | nil => simp [among]
  | cons v vs ih =>
    have later := ih fun u member => known u (List.mem_cons_of_mem _ member)
    rw [among, Truth.or_eq_yes, test_known present (known v List.mem_cons_self), later]
    simp

/-- There is no doubt about it unless there is about one of them. -/
theorem among_ne_unknown (present : x.isNull = false) (known : ∀ v ∈ vs, v.isNull = false)
    (certain : ∀ v ∈ vs, c .equal x v ≠ .unknown) : c.among x vs ≠ .unknown := by
  induction vs with
  | nil => simp [among]
  | cons v vs ih =>
    have first := certain v List.mem_cons_self
    have later := ih (fun u member => known u (List.mem_cons_of_mem _ member))
      fun u member => certain u (List.mem_cons_of_mem _ member)
    rw [among, test_known present (known v List.mem_cons_self)]
    cases compared : c .equal x v with
    | yes => exact Truth.noConfusion
    | no => exact later
    | unknown => exact absurd compared first

end Comparison

namespace Expr

/-- A column, by itself or by name. -/
def isColumn : Expr → Bool
  | column _ | reference _ => true
  | _ => false

/-- What a list of literals is written with. -/
def listed (vs : List Value) : List Value :=
  if vs.isEmpty then [.null] else vs

/-- A test whether the operand is in a list of literals. -/
def isAmong (x : Expr) (vs : List Value) : Expr :=
  .binary .isIn x (.list (vs.map .literal))

section
variable {x : Expr} {vs : List Value} {w : Manner}

theorem members_literals (row : Cells) (vs : List Value) :
    (list (vs.map literal)).members row = listed vs := by
  cases vs with
  | nil => rfl
  | cons v vs => simp [members, listed, operand, Function.comp_def]

theorem truthOf_isAmong (c : Comparison) (row : Cells) :
    (isAmong x vs).truthOf c row = c.among (x.operand row) (listed vs) := by
  rw [isAmong, truthOf, members_literals]

theorem writeItems_literals (w : Manner) (vs : List Value) :
    writeItems w (vs.map literal) = vs.map fun v => [.hole (.literal v)] := by
  induction vs with
  | nil => rfl
  | cons v vs ih => rw [List.map_cons, writeItems, ih, write, List.map_cons]

/-- The text of a list names the values that the list is written with. -/
theorem fill_list (operand : w.fragment ≠ .rangeEnds) :
    Piece.fill w.flavor.literalOf ((list (vs.map literal)).write w) =
      w.flavor.listText (listed vs) := by
  rw [write, if_neg operand, Flavor.listText]
  cases vs with
  | nil => rfl
  | cons v vs =>
    have some : ((v :: vs).map literal).isEmpty = false := rfl
    have items : ((v :: vs).map fun u => [Piece.hole (.literal u)]).mapM
        (Piece.fill w.flavor.literalOf) = (v :: vs).mapM w.flavor.literal := by
      rw [List.mapM_map]
      simp only [Function.comp_def, Flavor.fill_literal]
    rw [some, if_neg Bool.false_ne_true, writeItems_literals, Piece.fill, Piece.fill_append,
      Piece.fill_separated, items, listed, List.isEmpty_cons, if_neg Bool.false_ne_true]
    cases (v :: vs).mapM w.flavor.literal with
    | error failure => rfl
    | ok texts => exact congrArg Except.ok (by simp [String.append_assoc])

/-- A column is a word, which no operator around it puts in parentheses. -/
theorem write_column (column : x.isColumn = true) :
    ∃ name, x.write w = [.text name] ∧ x.precedence = atomPrecedence := by
  cases x with
  | column | reference => exact ⟨_, rfl, rfl⟩
  | _ => cases column

/-- The test reads as the column and the list, its negation as the same behind `NOT`. -/
theorem inline_isAmong (vs : List Value) (column : x.isColumn = true)
    (operand : w.fragment ≠ .rangeEnds) :
    ∃ name, x.write w = [.text name] ∧
      (Template.ofPieces ((isAmong x vs).write w)).inline w.flavor =
        (name ++ " IN " ++ ·) <$> w.flavor.listText (listed vs) ∧
      (Template.ofPieces ((unary .not (isAmong x vs)).write w)).inline w.flavor =
        ("NOT " ++ name ++ " IN " ++ ·) <$> w.flavor.listText (listed vs) := by
  obtain ⟨name, named, atom⟩ := write_column (w := w) column
  refine ⟨name, named, ?_⟩
  have pieces : (isAmong x vs).write w =
      .text name :: .text " IN " :: (list (vs.map literal)).write w := by
    simp [isAmong, write, BinaryOperator.between?, BinaryOperator.closesRight, named, atom,
      Piece.parenthesized, BinaryOperator.precedence, atomPrecedence]
  have negated : (unary .not (isAmong x vs)).write w = .text "NOT " :: (isAmong x vs).write w := by
    simp [write, isAmong, precedence, Piece.parenthesized, UnaryOperator.precedence,
      BinaryOperator.precedence]
  have filled : Piece.fill w.flavor.literalOf ((list (vs.map literal)).write w) =
      w.flavor.listText (listed vs) := fill_list operand
  constructor
  · rw [Flavor.inline_ofPieces, pieces, Piece.fill, Piece.fill, filled]
    simp only [map_eq_pure_bind, bind_assoc, pure_bind, String.append_assoc]
  · rw [Flavor.inline_ofPieces, negated, pieces, Piece.fill, Piece.fill, Piece.fill, filled]
    simp only [map_eq_pure_bind, bind_assoc, pure_bind, String.append_assoc]

/-- Among nothing the test is in doubt. -/
theorem truthOf_isAmong_nil (c : Comparison) (row : Cells) :
    (isAmong x []).truthOf c row = .unknown := by
  rw [truthOf_isAmong]
  exact c.among_nulls _ rfl 0

/-- Among items that are there the test is as true as the comparisons with them. -/
theorem truthOf_isAmong_items (c : Comparison) (row : Cells) (some : vs ≠ []) :
    (isAmong x vs).truthOf c row = c.among (x.operand row) vs := by
  rw [truthOf_isAmong, listed, List.isEmpty_eq_false_iff.mpr some, if_neg Bool.false_ne_true]

/-- A test whether a column that is there is in a list of values that are there
selects the row when an item equals the column. Its negation selects it when none
does and there is an item: with none the truth of both is in doubt. The truth is
that of the text, which lists the values that the column is looked for among. -/
theorem list_test_selects (c : Comparison) (row : Cells) (vs : List Value)
    (column : x.isColumn = true) (present : (x.operand row).isNull = false)
    (known : ∀ v ∈ vs, v.isNull = false)
    (certain : ∀ v ∈ vs, c .equal (x.operand row) v ≠ .unknown) :
    (Selects c row (isAmong x vs) ↔ ∃ v ∈ vs, c .equal (x.operand row) v = .yes) ∧
      (Selects c row (.unary .not (isAmong x vs)) ↔
        vs ≠ [] ∧ ¬ ∃ v ∈ vs, c .equal (x.operand row) v = .yes) ∧
      ((isAmong x vs).truthOf c row = .unknown ↔ vs = []) ∧
      (isAmong x vs).truthOf c row = c.among (x.operand row) (listed vs) ∧
      ∀ w : Manner, w.fragment ≠ .rangeEnds → ∃ name, x.write w = [.text name] ∧
        (Template.ofPieces ((isAmong x vs).write w)).inline w.flavor =
          (name ++ " IN " ++ ·) <$> w.flavor.listText (listed vs) ∧
        (Template.ofPieces ((unary .not (isAmong x vs)).write w)).inline w.flavor =
          ("NOT " ++ name ++ " IN " ++ ·) <$> w.flavor.listText (listed vs) := by
  have texts := fun (w : Manner) (operand : w.fragment ≠ .rangeEnds) =>
    inline_isAmong vs column operand
  have truth : (isAmong x vs).truthOf c row = c.among (x.operand row) (listed vs) :=
    truthOf_isAmong c row
  have negated : (unary .not (isAmong x vs)).truthOf c row = ((isAmong x vs).truthOf c row).not := by
    rw [truthOf]
  rw [Selects, Selects, negated, Truth.not_eq_yes]
  by_cases none : vs = []
  · have doubt : (isAmong x vs).truthOf c row = .unknown := by
      rw [none]
      exact truthOf_isAmong_nil c row
    refine ⟨?_, ?_, ?_, truth, texts⟩ <;> rw [doubt] <;> simp [none]
  · have items := truthOf_isAmong_items (x := x) c row none
    have equals := Comparison.among_eq_yes (c := c) present known
    have settled := Comparison.among_ne_unknown present known certain
    refine ⟨items ▸ equals, ?_, by simp [items, settled, none], truth, texts⟩
    -- what is neither true nor in doubt is false
    rw [items, ← equals]
    cases among : c.among (x.operand row) vs with
    | yes | no => simp [none]
    | unknown => exact absurd among settled

end

section
open Library

/-- The authors whose key is among given ones. -/
def withKeys (keys : List Value) : Expr :=
  isAmong (.column Author.idColumn) keys

/-- The third author is not among the first two. -/
theorem third_author_list_test_selects :
    (¬ Selects equality (fun _ => keyValue 3) (withKeys [keyValue 1, keyValue 2])) ∧
      Selects equality (fun _ => keyValue 3) (.unary .not (withKeys [keyValue 1, keyValue 2])) := by
  have differs : ¬ ∃ v ∈ [keyValue 1, keyValue 2], equality .equal (keyValue 3) v = .yes := by
    decide
  obtain ⟨found, others, _⟩ := list_test_selects (x := .column Author.idColumn) equality
    (fun _ => keyValue 3) [keyValue 1, keyValue 2] rfl rfl (by decide) (by decide)
  exact ⟨fun selected => differs (found.mp selected), others.mpr ⟨by decide, differs⟩⟩

/-- The second author is not among none, but is not found when those among none
are left out: the key is looked for among NULL. -/
theorem others_than_none_not_selected : ∃ q j,
    (Query.exclude (withKeys [])).exec (Query.ofModel Author.model) [] = ((.ok (), q), j) ∧
      q.condition = some (.unary .not (withKeys [])) ∧
      (Template.ofPieces ((unary .not (withKeys [])).write { flavor := .postgres })).inline
        .postgres = .ok "NOT \"id\" IN (NULL)" ∧
      (keyValue 2).isNull = false ∧
      (¬ ∃ v ∈ ([] : List Value), equality .equal (keyValue 2) v = .yes) ∧
      ¬ Selects equality (fun _ => keyValue 2) (.unary .not (withKeys [])) := by
  refine ⟨_, _, rfl, rfl, ?_, rfl, by simp, by decide⟩
  obtain ⟨name, named, _, text⟩ := inline_isAmong (x := .column Author.idColumn)
    (w := { flavor := .postgres }) [] rfl (by decide)
  have quoted : name = "\"id\"" := by
    cases named
    rfl
  rw [withKeys, text, quoted]
  rfl

end

end Expr

end PreparedSql
