import PreparedSql.Expr.Writing

/-! The literals and parameters of an expression, from left to right. They are
all that an expression keeps out of its text, whatever the flavor, the fragment
and the parentheses: one hole for a literal, one for every element of a
parameter. -/
namespace PreparedSql

/-- What an expression does not write into its text. -/
inductive Leaf where
  | literal (v : Value)
  | param (p : Param)

namespace Leaf

/-- The holes that a leaf leaves. -/
def holes : Leaf → List Hole
  | literal v => [.literal v]
  | param p => (List.range p.slots).map (.element p.token)

def param? : Leaf → Option Param
  | literal _ => none
  | param p => some p

/-- The parameters among leaves. -/
theorem mem_params {ls : List Leaf} {p : Param} : p ∈ ls.filterMap param? ↔ .param p ∈ ls := by
  rw [List.mem_filterMap]
  constructor
  · rintro ⟨leaf, member, same⟩
    cases leaf with
    | literal => cases same
    | param => cases same; exact member
  · intro member
    exact ⟨_, member, rfl⟩

end Leaf

namespace Bound

def leaves : Bound → List Leaf
  | row _ => []
  | param p => [.param p]

theorem mem_leaves {b : Bound} {p : Param} : .param p ∈ b.leaves ↔ b = .param p := by
  cases b with
  | row n => simp [leaves]
  | param q =>
    simp only [leaves, List.mem_singleton, Leaf.param.injEq, param.injEq]
    exact eq_comm

end Bound

namespace Expr

mutual

/-- The literals and parameters of the expression, from left to right. -/
def leaves : Expr → List Leaf
  | param p => [.param p]
  | bound b => b.leaves
  | literal v => [.literal v]
  | binary _ l r => leaves l ++ leaves r
  | unary _ e => leaves e
  | list items => itemLeaves items
  | cases whens otherwise => branchLeaves whens ++ otherwiseLeaves otherwise
  | ordered _ e => leaves e
  | column _ | reference _ | truth _ | raw _ => []

def itemLeaves : List Expr → List Leaf
  | [] => []
  | e :: rest => leaves e ++ itemLeaves rest

def branchLeaves : List (Expr × Expr) → List Leaf
  | [] => []
  | (condition, e) :: rest => leaves condition ++ (leaves e ++ branchLeaves rest)

def otherwiseLeaves : Option Expr → List Leaf
  | none => []
  | some e => leaves e

end

/-- The occurrences of parameters in the expression. -/
def occurrences (e : Expr) : List Param :=
  e.leaves.filterMap Leaf.param?

end Expr

/-! ### Holes of pieces -/

namespace Piece

def hole? : Piece → Option Hole
  | text _ => none
  | hole h => some h

/-- The holes among pieces, in order. -/
def holes (ps : List Piece) : List Hole :=
  ps.filterMap hole?

theorem mem_holes {h : Hole} {ps : List Piece} : h ∈ holes ps ↔ .hole h ∈ ps := by
  unfold holes
  rw [List.mem_filterMap]
  constructor
  · rintro ⟨p, member, found⟩
    cases p with
    | text => cases found
    | hole => cases found; exact member
  · intro member
    exact ⟨.hole h, member, rfl⟩

@[simp] theorem holes_nil : holes [] = [] := rfl

@[simp] theorem holes_text (s : String) (ps : List Piece) : holes (.text s :: ps) = holes ps := rfl

@[simp] theorem holes_hole (h : Hole) (ps : List Piece) :
    holes (.hole h :: ps) = h :: holes ps := rfl

@[simp] theorem holes_append (ps qs : List Piece) : holes (ps ++ qs) = holes ps ++ holes qs :=
  List.filterMap_append

@[simp] theorem holes_separated (separator : String) (pss : List (List Piece)) :
    holes (separated separator pss) = pss.flatMap holes := by
  induction pss with
  | nil => rfl
  | cons ps rest ih =>
    cases rest with
    | nil => simp [separated]
    | cons qs rest =>
      have opened : separated separator (ps :: qs :: rest) =
          ps ++ .text separator :: separated separator (qs :: rest) := rfl
      rw [opened, holes_append, holes_text, ih, List.flatMap_cons (x := ps)]

@[simp] theorem holes_parenthesized (asked : Bool) (ps : List Piece) :
    holes (parenthesized asked ps) = holes ps := by
  cases asked <;> simp [parenthesized]

end Piece

open Piece

theorem Param.holes_write (p : Param) : holes p.write = (Leaf.param p).holes := by
  unfold Param.write Leaf.holes
  cases size : p.size with
  | none => simp [Param.isArray, Param.slots, size]
  | some n =>
    simp only [Param.isArray, size, Option.isSome_some, ↓reduceIte, holes_text, holes_append,
      holes_separated, holes_nil, List.append_nil]
    induction List.range p.slots with
    | nil => rfl
    | cons i rest ih => simp_all

theorem Bound.holes_write (b : Bound) : holes b.write = b.leaves.flatMap Leaf.holes := by
  cases b with
  | row n => rfl
  | param p => simp [Bound.write, Bound.leaves, Param.holes_write]

namespace Flavor

@[simp] theorem holes_likePattern (f : Flavor) (wildcards : Bool × Bool) (precedence : Nat)
    (ps : List Piece) : holes (f.likePattern wildcards precedence ps) = holes ps := by
  obtain ⟨before, behind⟩ := wildcards
  cases f <;> cases before <;> cases behind <;> simp [likePattern]

@[simp] theorem holes_sameIgnoringCase (f : Flavor) (left right : List Piece) :
    holes (f.sameIgnoringCase left right) = holes left ++ holes right := by
  cases f <;> simp [sameIgnoringCase]

end Flavor

namespace Expr

mutual

/-- The holes of a written expression are those of its leaves. -/
theorem holes_write (w : Manner) : (e : Expr) → holes (e.write w) = e.leaves.flatMap Leaf.holes
  | column _ | reference _ | truth _ | raw _ => rfl
  | literal _ => rfl
  | param p => by simp [write, leaves, Param.holes_write]
  | bound b => by simp [write, leaves, Bound.holes_write]
  | binary op l r => by
    simp only [write, leaves, List.flatMap_append]
    split
    · simp only [holes_append, holes_text, holes_parenthesized]
      rw [holes_write w l, holes_write _ r]
    · split
      · rw [Flavor.holes_sameIgnoringCase, holes_write w l, holes_write w r]
      · simp only [holes_append, holes_text, holes_parenthesized, Flavor.holes_likePattern]
        rw [holes_write w l, holes_write w r]
  | unary op e => by
    have operand := holes_write w e
    cases op <;> simp [write, leaves, operand]
  | list items => by
    simp only [write, leaves]
    split
    · rw [holes_separated, holes_writeEnds _ items]
    · split
      · next empty =>
        rw [List.isEmpty_iff.mp empty]
        rfl
      · simp only [holes_text, holes_append, holes_separated, holes_nil, List.append_nil]
        rw [holes_writeItems w items]
  | cases whens otherwise => by
    simp only [write, leaves, List.flatMap_append, holes_text, holes_append, holes_nil,
      List.append_nil]
    rw [holes_writeBranches w whens, holes_writeOtherwise w otherwise]
  | ordered order e => by
    simp only [write, leaves, holes_append, holes_write w e]
    split <;> simp

theorem holes_writeItems (w : Manner) : (es : List Expr) →
    (writeItems w es).flatMap holes = (itemLeaves es).flatMap Leaf.holes
  | [] => rfl
  | e :: rest => by
    simp only [writeItems, itemLeaves, List.flatMap_cons, List.flatMap_append]
    rw [holes_write w e, holes_writeItems w rest]

theorem holes_writeEnds (w : Manner) : (es : List Expr) →
    (writeEnds w es).flatMap holes = (itemLeaves es).flatMap Leaf.holes
  | [] => rfl
  | e :: rest => by
    simp only [writeEnds, itemLeaves, List.flatMap_cons, List.flatMap_append, holes_parenthesized]
    rw [holes_write w e, holes_writeEnds w rest]

theorem holes_writeBranches (w : Manner) : (whens : List (Expr × Expr)) →
    holes (writeBranches w whens) = (branchLeaves whens).flatMap Leaf.holes
  | [] => rfl
  | (condition, e) :: rest => by
    simp only [writeBranches, branchLeaves, List.flatMap_append, holes_text, holes_append]
    rw [holes_write w condition, holes_write w e, holes_writeBranches w rest]

theorem holes_writeOtherwise (w : Manner) : (otherwise : Option Expr) →
    holes (writeOtherwise w otherwise) = (otherwiseLeaves otherwise).flatMap Leaf.holes
  | none => rfl
  | some e => holes_write w e

end

end Expr

end PreparedSql
