import Mathlib.Data.List.Forall2
import PreparedSql.Library.Author
import PreparedSql.Proofs.ParameterSubstitution
import PreparedSql.Query.Basic

/-! Literals do not reach the text of a statement. Two queries of one shape,
which differ in nothing but the payloads of their literals, are written as the
same text with holes at the same places. To say so, payloads are blanked out:
what is written from a blanked query is what is written from the query, with the
same payloads blanked out. -/
namespace PreparedSql

open Piece

namespace Expr

mutual

/-- The shape of an expression: NULL stands for the payload of every literal. -/
def blanked : Expr → Expr
  | column c => column c
  | reference c => reference c
  | param p => param p
  | bound b => bound b
  | literal _ => literal .null
  | truth b => truth b
  | raw sql => raw sql
  | binary op l r => binary op (blanked l) (blanked r)
  | unary op e => unary op (blanked e)
  | list items => list (blankedItems items)
  | cases whens otherwise => cases (blankedBranches whens) (blankedOtherwise otherwise)
  | ordered order e => ordered order (blanked e)

def blankedItems : List Expr → List Expr
  | [] => []
  | e :: rest => blanked e :: blankedItems rest

def blankedBranches : List (Expr × Expr) → List (Expr × Expr)
  | [] => []
  | (condition, e) :: rest => (blanked condition, blanked e) :: blankedBranches rest

def blankedOtherwise : Option Expr → Option Expr
  | none => none
  | some e => some (blanked e)

end

end Expr

namespace Hole

/-- The hole without the payload of a literal. -/
def blanked : Hole → Hole
  | literal _ => literal .null
  | h => h

/-- Both holes take literals, or they are the same hole. -/
def Alike (h₁ h₂ : Hole) : Prop :=
  (∃ v₁ v₂, h₁ = .literal v₁ ∧ h₂ = .literal v₂) ∨ h₁ = h₂

theorem alike_of_blanked {h₁ h₂ : Hole} (same : h₁.blanked = h₂.blanked) : Alike h₁ h₂ := by
  cases h₁ with
  | literal v₁ =>
    cases h₂ with
    | literal v₂ => exact .inl ⟨v₁, v₂, rfl, rfl⟩
    | element token index => cases same
    | span low high => cases same
  | element token index =>
    cases h₂ with
    | literal v₂ => cases same
    | element token' index' => exact .inr same
    | span low high => cases same
  | span low high =>
    cases h₂ with
    | literal v₂ => cases same
    | element token index => cases same
    | span low' high' => exact .inr same

end Hole

namespace Piece

variable (ν : Hole → Hole)

/-- Other holes leave the text as it is. -/
theorem texts_refill (ps : List Piece) : texts (refill ν ps) = texts ps := by
  induction ps with
  | nil => rfl
  | cons p ps ih =>
    cases p with
    | text s => rw [refill_text, texts, texts, ih]
    | hole h => rw [refill_hole, texts, texts, ih]

/-- Other holes lie where the holes lay. -/
theorem holesFrom_refill (start : Nat) (ps : List Piece) :
    holesFrom start (refill ν ps) = (holesFrom start ps).map fun (offset, h) => (offset, ν h) := by
  induction ps generalizing start with
  | nil => rfl
  | cons p ps ih =>
    cases p with
    | text s => exact ih _
    | hole h => rw [refill_hole, holesFrom, holesFrom, List.map_cons, ih]

end Piece

/-! ### Writing what is blanked -/

/-- A parameter holds no payload. -/
@[simp] theorem Param.blanked_write (p : Param) : refill Hole.blanked p.write = p.write := by
  unfold Param.write
  split <;> simp [Hole.blanked, List.map_map, Function.comp_def]

@[simp] theorem Bound.blanked_write : (b : Bound) → refill Hole.blanked b.write = b.write
  | row _ => rfl
  | param p => p.blanked_write

namespace Expr

/-- A payload does not change how closely an expression holds together. -/
theorem precedence_blanked (e : Expr) : e.blanked.precedence = e.precedence := by
  cases e with
  | ordered order e => exact precedence_blanked e
  | _ => rfl

private theorem isEmpty_blankedItems (items : List Expr) :
    (blankedItems items).isEmpty = items.isEmpty := by
  cases items <;> rfl

mutual

/-- A blanked expression is written as the expression is, with blank literals in
its holes. -/
theorem write_blanked (w : Manner) :
    (e : Expr) → e.blanked.write w = refill Hole.blanked (e.write w)
  | column _ | reference _ | truth _ | raw _ | literal _ => rfl
  | param p => p.blanked_write.symm
  | bound b => b.blanked_write.symm
  | binary op l r => by
    have left := write_blanked w l
    simp only [blanked, write, precedence_blanked, left]
    cases between : op.between? with
    | some text => simp [write_blanked _ r]
    | none =>
      simp only [write_blanked w r]
      split <;> simp
  | unary op e => by
    have operand := write_blanked w e
    cases op <;> simp [blanked, write, precedence_blanked, operand]
  | list items => by
    simp only [blanked, write, isEmpty_blankedItems]
    split
    · rw [writeEnds_blanked _ items, refill_separated]
    · split
      · rfl
      · simp [writeItems_blanked w items]
  | cases whens otherwise => by
    simp [blanked, write, writeBranches_blanked w whens, writeOtherwise_blanked w otherwise]
  | ordered order e => by
    simp only [blanked, write, write_blanked w e, refill_append]
    split <;> rfl

theorem writeItems_blanked (w : Manner) : (items : List Expr) →
    writeItems w (blankedItems items) = (writeItems w items).map (refill Hole.blanked)
  | [] => rfl
  | e :: rest => by
    simp only [blankedItems, writeItems, write_blanked w e, writeItems_blanked w rest,
      List.map_cons]

theorem writeEnds_blanked (w : Manner) : (items : List Expr) →
    writeEnds w (blankedItems items) = (writeEnds w items).map (refill Hole.blanked)
  | [] => rfl
  | e :: rest => by
    simp only [blankedItems, writeEnds, write_blanked w e, writeEnds_blanked w rest,
      precedence_blanked, List.map_cons, refill_parenthesized]

theorem writeBranches_blanked (w : Manner) : (whens : List (Expr × Expr)) →
    writeBranches w (blankedBranches whens) = refill Hole.blanked (writeBranches w whens)
  | [] => rfl
  | (condition, e) :: rest => by
    simp only [blankedBranches, writeBranches, write_blanked w condition, write_blanked w e,
      writeBranches_blanked w rest, refill_text, refill_append]

theorem writeOtherwise_blanked (w : Manner) : (otherwise : Option Expr) →
    writeOtherwise w (blankedOtherwise otherwise) =
      refill Hole.blanked (writeOtherwise w otherwise)
  | none => rfl
  | some e => by simp only [blankedOtherwise, writeOtherwise, write_blanked w e, refill_text]

end

/-- An expression without the payloads, beside what belongs to it. -/
def blankedWith {α : Type} (pair : α × Expr) : α × Expr :=
  (pair.1, pair.2.blanked)

end Expr

/-- The shape of a projected column. -/
def Selection.blankedColumn (column : Expr × Option String) : Expr × Option String :=
  (column.1.blanked, column.2)

/-- The shape of a selection. -/
def Selection.blanked (s : Selection) : Selection :=
  { s with
    columns := s.columns.map blankedColumn
    condition := s.condition.map Expr.blanked
    orderBy := s.orderBy.map Expr.blanked }

namespace Flavor

variable (f : Flavor)

theorem projected_blanked (column : Expr × Option String) :
    f.projected (Selection.blankedColumn column) = refill Hole.blanked (f.projected column) := by
  obtain ⟨e, alias_⟩ := column
  cases alias_ <;> simp [projected, Selection.blankedColumn, Expr.write_blanked]

theorem whereClause_blanked (condition : Option Expr) :
    f.whereClause (condition.map Expr.blanked) = refill Hole.blanked (f.whereClause condition) := by
  cases condition with
  | none => rfl
  | some e => simp [whereClause, Expr.write_blanked]

theorem orderClause_blanked (orderBy : List Expr) :
    f.orderClause (orderBy.map Expr.blanked) = refill Hole.blanked (f.orderClause orderBy) := by
  simp only [orderClause, List.isEmpty_map]
  split
  · rfl
  · simp [Expr.write_blanked, Function.comp_def]

theorem assignment_blanked (a : Column × Expr) :
    f.assignment (Expr.blankedWith a) = refill Hole.blanked (f.assignment a) := by
  simp [assignment, Expr.blankedWith, Expr.write_blanked]

/-- A window is written from its bounds, which hold no payload. -/
theorem blanked_window (low : Bound) (high : Option Bound) :
    refill Hole.blanked (f.window low high) = f.window low high := by
  unfold window
  split
  · split <;> simp
  · simp only [refill_append, refill_text, refill_nil]
    split <;> rfl
  · split <;> simp [Hole.blanked]

theorem select_blanked (s : Selection) :
    f.select s.blanked = refill Hole.blanked (f.select s) := by
  have duplicates : s.blanked.distinct = s.distinct := rfl
  unfold select
  rw [duplicates]
  simp [Selection.blanked, projected_blanked, whereClause_blanked, orderClause_blanked,
    blanked_window, Function.comp_def]

theorem selectCount_blanked (s : Selection) :
    f.selectCount s.blanked = refill Hole.blanked (f.selectCount s) := by
  have sliced : s.blanked.isSliced = s.isSliced := rfl
  have duplicates : s.blanked.distinct = s.distinct := rfl
  unfold selectCount
  rw [sliced, duplicates]
  split
  · simp [select_blanked]
  · exact f.select_blanked { s with columns := [(.raw "COUNT(*)", none)], orderBy := [] }

theorem update_blanked (t : TableRef) (assignments : List (Column × Expr))
    (condition : Option Expr) :
    f.update t (assignments.map Expr.blankedWith) (condition.map Expr.blanked) =
      refill Hole.blanked (f.update t assignments condition) := by
  simp [update, assignment_blanked, whereClause_blanked, Function.comp_def]

theorem delete_blanked (t : TableRef) (condition : Option Expr) :
    f.delete t (condition.map Expr.blanked) = refill Hole.blanked (f.delete t condition) := by
  simp [delete, whereClause_blanked]

end Flavor

/-! ### Queries of one shape -/

/-- Entries at one offset, for one thing but for the payload of a literal. -/
def AlikeEntries (a b : Nat × Hole) : Prop :=
  a.1 = b.1 ∧ Hole.Alike a.2 b.2

/-- Templates that differ in nothing but the payloads of their literals. -/
structure Template.Alike (t₁ t₂ : Template) : Prop where
  text : t₁.text = t₂.text
  entries : List.Forall₂ AlikeEntries t₁.holes t₂.holes

/-- Both are written, as templates that are alike, or both are refused for one reason. -/
def Template.AlikeOutcomes : Except Failure Template → Except Failure Template → Prop
  | .ok t₁, .ok t₂ => t₁.Alike t₂
  | .error failure₁, .error failure₂ => failure₁ = failure₂
  | _, _ => False

/-- Pieces that are the same without their payloads make templates that are alike. -/
theorem Template.alike_of_blanked {ps₁ ps₂ : List Piece}
    (same : refill Hole.blanked ps₁ = refill Hole.blanked ps₂) :
    (ofPieces ps₁).Alike (ofPieces ps₂) := by
  have texts := congrArg texts same
  rw [texts_refill, texts_refill] at texts
  have entries := congrArg (holesFrom 0) same
  rw [holesFrom_refill, holesFrom_refill, ← List.forall₂_eq_eq_eq, List.forall₂_map_left_iff,
    List.forall₂_map_right_iff] at entries
  refine ⟨texts, entries.imp fun a b blanks => ?_⟩
  obtain ⟨offsets, holes⟩ := Prod.mk.inj blanks
  exact ⟨offsets, Hole.alike_of_blanked holes⟩

namespace Query

/-- Queries of one shape: their annotations, conditions and orderings differ in
nothing but the payloads of literals. -/
structure SameShape (q₁ q₂ : Query) : Prop where
  model : q₁.model = q₂.model
  fields : q₁.fields = q₂.fields
  annotations : q₁.annotations.map Expr.blankedWith = q₂.annotations.map Expr.blankedWith
  condition : q₁.condition.map Expr.blanked = q₂.condition.map Expr.blanked
  orderBy : q₁.orderBy.map Expr.blankedWith = q₂.orderBy.map Expr.blankedWith
  distinct : q₁.distinct = q₂.distinct
  low : q₁.low = q₂.low
  high : q₁.high = q₂.high

variable {q₁ q₂ : Query}

/-- Queries of one shape make selections of one shape. -/
theorem SameShape.selection (same : SameShape q₁ q₂) {columns₁ columns₂ : List (Expr × Option String)}
    (columns : columns₁.map Selection.blankedColumn = columns₂.map Selection.blankedColumn) :
    (q₁.selection columns₁).blanked = (q₂.selection columns₂).blanked := by
  have orderings (q : Query) : (q.orderBy.map fun o => Expr.ordered o.1 o.2).map
      Expr.blanked = (q.orderBy.map Expr.blankedWith).map fun o => .ordered o.1 o.2 := by
    rw [List.map_map, List.map_map]
    rfl
  simp only [Query.selection, Selection.blanked, table, columns, same.model, same.condition,
    same.distinct, same.low, same.high, orderings, same.orderBy]

theorem SameShape.projection (same : SameShape q₁ q₂) :
    q₁.projection.map Selection.blankedColumn = q₂.projection.map Selection.blankedColumn := by
  have aliases (q : Query) : (q.annotations.map fun a => (a.2, some a.1)).map
      Selection.blankedColumn =
        (q.annotations.map Expr.blankedWith).map fun a => (a.2, some a.1) := by
    rw [List.map_map, List.map_map]
    rfl
  rw [Query.projection, Query.projection, List.map_append, List.map_append, aliases, aliases,
    same.annotations, same.fields, same.model]

theorem SameShape.isSliced (same : SameShape q₁ q₂) : q₁.isSliced = q₂.isSliced := by
  rw [Query.isSliced, Query.isSliced, same.low, same.high]

/-- No literal is written into a statement. Queries of one shape, changed to
values of one shape, are written as the same texts; their entries lie at the same
offsets and differ in nothing but the payloads of literals. A statement that
cannot be written for one of them cannot be written for the other. -/
theorem statements_alike (same : SameShape q₁ q₂) {assignments₁ assignments₂ : List (Column × Expr)}
    (values : assignments₁.map Expr.blankedWith = assignments₂.map Expr.blankedWith)
    (f : Flavor) :
    (q₁.selectTemplate f).Alike (q₂.selectTemplate f) ∧
    (q₁.countTemplate f).Alike (q₂.countTemplate f) ∧
    Template.AlikeOutcomes (q₁.updateTemplate f assignments₁) (q₂.updateTemplate f assignments₂) ∧
    Template.AlikeOutcomes (q₁.deleteTemplate f) (q₂.deleteTemplate f) := by
  have counted : (if q₁.distinct then q₁.projection
        else [(.column q₁.model.primaryKey, none)]).map Selection.blankedColumn =
      (if q₂.distinct then q₂.projection
        else [(.column q₂.model.primaryKey, none)]).map Selection.blankedColumn := by
    rw [same.distinct, same.model]
    split
    · exact same.projection
    · rfl
  refine ⟨Template.alike_of_blanked ?_, Template.alike_of_blanked ?_, ?_, ?_⟩
  · rw [← f.select_blanked, ← f.select_blanked, same.selection same.projection]
  · rw [← f.selectCount_blanked, ← f.selectCount_blanked, same.selection counted]
  · unfold updateTemplate
    rw [same.isSliced]
    cases q₂.isSliced with
    | true => rfl
    | false =>
      refine Template.alike_of_blanked ?_
      rw [← f.update_blanked, ← f.update_blanked, values, same.condition, table, table, same.model]
  · unfold deleteTemplate
    rw [same.isSliced]
    cases q₂.isSliced with
    | true => rfl
    | false =>
      refine Template.alike_of_blanked ?_
      rw [← f.delete_blanked, ← f.delete_blanked, same.condition, table, table, same.model]

open Library in
/-- Authors whose name holds a text, those with a greater key first. -/
def searched (text : Value) (key : Value) : Query :=
  { ofModel Author.model with
    condition := some (.binary .icontains (.column Author.nameColumn) (.literal text))
    orderBy := [(.descending, .binary .greater (.column Author.idColumn) (.literal key))] }

open Library in
/-- A quote in the text that is searched for, or in a new value, stays out of the
statement. -/
theorem searched_statements_alike :
    let plain := searched (.varchar (some "o")) (.int .int64 (some (Ranged.clamp .int64 2)))
    let quoted := searched (.varchar (some "'; --")) (.varchar (some "' OR 1 = 1"))
    let renamed (name : String) : List (Column × Expr) :=
      [(Author.nameColumn, .literal (.varchar (some name)))]
    SameShape plain quoted ∧
      (renamed "Olga").map Expr.blankedWith = (renamed "O'Hara").map Expr.blankedWith ∧
      (plain.selectTemplate .mysql).Alike (quoted.selectTemplate .mysql) ∧
      (plain.countTemplate .mysql).Alike (quoted.countTemplate .mysql) ∧
      Template.AlikeOutcomes (plain.updateTemplate .mysql (renamed "Olga"))
        (quoted.updateTemplate .mysql (renamed "O'Hara")) ∧
      Template.AlikeOutcomes (plain.deleteTemplate .mysql) (quoted.deleteTemplate .mysql) := by
  intro plain quoted renamed
  have same : SameShape plain quoted := ⟨rfl, rfl, rfl, rfl, rfl, rfl, rfl, rfl⟩
  have values : (renamed "Olga").map Expr.blankedWith = (renamed "O'Hara").map Expr.blankedWith :=
    rfl
  exact ⟨same, values, statements_alike same values .mysql⟩

end Query

end PreparedSql
