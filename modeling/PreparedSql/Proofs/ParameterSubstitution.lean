import PreparedSql.Proofs.ExpressionLeaves
import PreparedSql.Proofs.TemplateFilling

/-! Putting values in the places of parameters. A scalar becomes the literal of
its value and an array the explicit list of its values. The text does not
change with it: where range tests have their two ends, the expression with
values is written as the expression with parameters, each hole replaced by the
literal that belongs there. -/
namespace PreparedSql

/-- Values for parameters, one for each of their elements. -/
abbrev Assignment := Param → List Value

namespace Param

/-- The parameter as the value or the list of values that it is assigned. -/
def assigned (σ : Assignment) (p : Param) : Expr :=
  if p.isArray then .list ((σ p).map .literal) else .literal ((σ p).headD .null)

end Param

namespace Bound

/-- A bound inside an expression, which is no slice. -/
def assigned (σ : Assignment) : Bound → Expr
  | row n => .bound (.row n)
  | param p => p.assigned σ

end Bound

namespace Expr

mutual

/-- The expression with values in the places of its parameters. -/
def assign (σ : Assignment) : Expr → Expr
  | column c => column c
  | reference c => reference c
  | param p => p.assigned σ
  | bound b => b.assigned σ
  | literal v => literal v
  | truth b => truth b
  | raw sql => raw sql
  | binary op l r => binary op (assign σ l) (assign σ r)
  | unary op e => unary op (assign σ e)
  | list items => list (assignItems σ items)
  | cases whens otherwise => cases (assignBranches σ whens) (assignOtherwise σ otherwise)
  | ordered order e => ordered order (assign σ e)

def assignItems (σ : Assignment) : List Expr → List Expr
  | [] => []
  | e :: rest => assign σ e :: assignItems σ rest

def assignBranches (σ : Assignment) : List (Expr × Expr) → List (Expr × Expr)
  | [] => []
  | (condition, e) :: rest => (assign σ condition, assign σ e) :: assignBranches σ rest

def assignOtherwise (σ : Assignment) : Option Expr → Option Expr
  | none => none
  | some e => some (assign σ e)

end

/-- The two ends of a range test. -/
def isRange : Expr → Bool
  | list [_, _] => true
  | _ => false

mutual

/-- Every range test inside has its two ends. -/
def ranged : Expr → Bool
  | binary op l r => ranged l && ranged r && (op != .between || r.isRange)
  | unary _ e => ranged e
  | list items => itemsRanged items
  | cases whens otherwise => branchesRanged whens && otherwiseRanged otherwise
  | ordered _ e => ranged e
  | column _ | reference _ | param _ | bound _ | literal _ | truth _ | raw _ => true

def itemsRanged : List Expr → Bool
  | [] => true
  | e :: rest => ranged e && itemsRanged rest

def branchesRanged : List (Expr × Expr) → Bool
  | [] => true
  | (condition, e) :: rest => ranged condition && ranged e && branchesRanged rest

def otherwiseRanged : Option Expr → Bool
  | none => true
  | some e => ranged e

end

end Expr

/-! ### Pieces with other holes -/

namespace Piece

/-- The piece with another hole in the place of its own. -/
def refilled (ν : Hole → Hole) : Piece → Piece
  | text s => text s
  | hole h => hole (ν h)

/-- Pieces with other holes in the places of their own. -/
def refill (ν : Hole → Hole) (ps : List Piece) : List Piece :=
  ps.map (refilled ν)

variable (ν : Hole → Hole)

@[simp] theorem refill_nil : refill ν [] = [] := rfl

@[simp] theorem refill_text (s : String) (ps : List Piece) :
    refill ν (.text s :: ps) = .text s :: refill ν ps := rfl

@[simp] theorem refill_hole (h : Hole) (ps : List Piece) :
    refill ν (.hole h :: ps) = .hole (ν h) :: refill ν ps := rfl

@[simp] theorem refill_append (ps qs : List Piece) :
    refill ν (ps ++ qs) = refill ν ps ++ refill ν qs :=
  List.map_append

@[simp] theorem refill_separated (separator : String) (pss : List (List Piece)) :
    refill ν (separated separator pss) = separated separator (pss.map (refill ν)) := by
  induction pss with
  | nil => rfl
  | cons ps rest ih =>
    cases rest with
    | nil => rfl
    | cons qs rest =>
      have opened : separated separator (ps :: qs :: rest) =
          ps ++ .text separator :: separated separator (qs :: rest) := rfl
      rw [opened, refill_append, refill_text, ih]
      rfl

@[simp] theorem refill_parenthesized (asked : Bool) (ps : List Piece) :
    refill ν (parenthesized asked ps) = parenthesized asked (refill ν ps) := by
  cases asked <;> simp [parenthesized]

theorem refill_of_no_holes (ν : Hole → Hole) {ps : List Piece} (closed : holes ps = []) :
    refill ν ps = ps := by
  induction ps with
  | nil => rfl
  | cons p ps ih =>
    cases p with
    | text s => rw [refill_text, ih closed]
    | hole h => cases closed

/-- Filling with other holes is filling with what is written into them. -/
theorem fill_refill {m : Type → Type} [Monad m] (filling : Hole → m String) (ps : List Piece) :
    fill filling (refill ν ps) = fill (fun h => filling (ν h)) ps := by
  induction ps with
  | nil => rfl
  | cons p ps ih =>
    cases p with
    | text s => simp only [refill_text, fill, ih]
    | hole h => simp only [refill_hole, fill, ih]

end Piece

open Piece

namespace Flavor

@[simp] theorem refill_likePattern (ν : Hole → Hole) (f : Flavor) (wildcards : Bool × Bool)
    (precedence : Nat) (ps : List Piece) :
    refill ν (f.likePattern wildcards precedence ps) =
      f.likePattern wildcards precedence (refill ν ps) := by
  obtain ⟨before, behind⟩ := wildcards
  cases f <;> cases before <;> cases behind <;> simp [likePattern]

@[simp] theorem refill_sameIgnoringCase (ν : Hole → Hole) (f : Flavor) (left right : List Piece) :
    refill ν (f.sameIgnoringCase left right) =
      f.sameIgnoringCase (refill ν left) (refill ν right) := by
  cases f <;> simp [sameIgnoringCase]

end Flavor

/-- The replacement puts the values of a parameter into its holes. -/
def Assigns (ν : Hole → Hole) (σ : Assignment) (p : Param) : Prop :=
  (List.range p.slots).map (fun i => ν (.element p.token i)) = (σ p).map .literal

section
variable {ν : Hole → Hole} {σ : Assignment}

theorem Param.write_assigned {p : Param} {w : Manner} (assigns : Assigns ν σ p)
    (outside : w.fragment ≠ .rangeEnds) : (p.assigned σ).write w = refill ν p.write := by
  unfold Param.assigned Param.write
  unfold Assigns at assigns
  cases array : p.isArray with
  | false =>
    rw [Param.slots_of_scalar array] at assigns
    obtain ⟨x, values⟩ : ∃ x, σ p = [x] := by
      have length := congrArg List.length assigns
      simp only [List.length_map, List.length_range] at length
      exact List.length_eq_one_iff.mp length.symm
    rw [values] at assigns ⊢
    have filled : ν (.element p.token 0) = .literal x := by simpa using assigns
    simp [Expr.write, filled]
  | true =>
    have nonempty : (σ p).map Expr.literal ≠ [] := by
      intro empty
      have length := congrArg List.length assigns
      have positive := p.slots_pos
      simp only [List.length_map, List.length_range] at length
      rw [List.map_eq_nil_iff.mp empty] at length
      simp only [List.length_nil] at length
      omega
    have items (vs : List Value) :
        Expr.writeItems w (vs.map .literal) = vs.map fun v => [.hole (.literal v)] := by
      induction vs with
      | nil => rfl
      | cons v vs ih => simp [Expr.writeItems, Expr.write, ih]
    have holes : (σ p).map (fun v => [Piece.hole (.literal v)]) =
        (List.range p.slots).map fun i => [Piece.hole (ν (.element p.token i))] := by
      have mapped := congrArg (List.map fun h => [Piece.hole h]) assigns
      simpa only [List.map_map, Function.comp_def] using mapped.symm
    simp only [↓reduceIte, Expr.write, outside, items, holes, refill_text, refill_append,
      refill_separated, refill_nil, List.map_map, Function.comp_def, refill_hole]
    rw [if_neg (by simpa using nonempty)]

theorem Bound.write_assigned {b : Bound} {w : Manner}
    (assigns : ∀ p, .param p ∈ b.leaves → Assigns ν σ p) (outside : w.fragment ≠ .rangeEnds) :
    (b.assigned σ).write w = refill ν b.write := by
  cases b with
  | row n => rfl
  | param p => exact Param.write_assigned (assigns p (by simp [Bound.leaves])) outside

namespace Expr

private theorem precedence_assigned (p : Param) : (p.assigned σ).precedence = atomPrecedence := by
  unfold Param.assigned
  split <;> rfl

/-- Values hold together as closely as the parameters did. -/
theorem precedence_assign (e : Expr) : (e.assign σ).precedence = e.precedence := by
  cases e with
  | param p => exact precedence_assigned p
  | bound b =>
    cases b with
    | row n => rfl
    | param p => exact precedence_assigned p
  | ordered order e => exact precedence_assign e
  | _ => rfl

private theorem isEmpty_assignItems (items : List Expr) :
    (assignItems σ items).isEmpty = items.isEmpty := by
  cases items <;> rfl

mutual

/-- The text of an expression with values is that of the expression with
parameters, but for its holes. -/
theorem write_assign (literals : ∀ x, ν (.literal x) = .literal x) (w : Manner) :
    (e : Expr) → e.ranged → (w.fragment = .rangeEnds → e.isRange) →
      (∀ p, .param p ∈ e.leaves → Assigns ν σ p) →
      (e.assign σ).write w = refill ν (e.write w)
  | column _, _, _, _ | reference _, _, _, _ | truth _, _, _, _ | raw _, _, _, _ => rfl
  | literal x, _, _, _ => by simp [assign, write, literals]
  | param p, _, ends, assigns => by
    refine Param.write_assigned (assigns p (by simp [leaves])) fun inside => ?_
    simpa [isRange] using ends inside
  | bound b, _, ends, assigns => by
    refine Bound.write_assigned assigns fun inside => ?_
    simpa [isRange] using ends inside
  | binary op l r, tests, ends, assigns => by
    have outside : w.fragment ≠ .rangeEnds := fun inside => by simpa [isRange] using ends inside
    simp only [ranged, Bool.and_eq_true] at tests
    obtain ⟨⟨leftTests, rightTests⟩, range⟩ := tests
    have left := write_assign literals w l leftTests (absurd · outside)
      fun p member => assigns p (by simp [leaves, member])
    have right (w' : Manner) (ends : w'.fragment = .rangeEnds → r.isRange) :=
      write_assign literals w' r rightTests ends
        fun p member => assigns p (by simp [leaves, member])
    simp only [assign, write, precedence_assign, left]
    cases between : op.between? with
    | some text =>
      have ends : (if op = .between then Fragment.rangeEnds else w.fragment) = .rangeEnds →
          r.isRange := by
        intro inside
        by_cases test : op = .between
        · simpa [test] using range
        · rw [if_neg test] at inside
          exact absurd inside outside
      rw [right { w with fragment := if op = .between then .rangeEnds else w.fragment } ends]
      simp only [refill_append, refill_text, refill_parenthesized]
    | none =>
      simp only [right w (absurd · outside)]
      split <;> simp
  | unary op e, tests, ends, assigns => by
    have outside : w.fragment ≠ .rangeEnds := fun inside => by simpa [isRange] using ends inside
    have operand := write_assign literals w e tests (absurd · outside) assigns
    cases op <;> simp [assign, write, precedence_assign, operand]
  | list items, tests, ends, assigns => by
    simp only [assign, write, isEmpty_assignItems]
    split
    · rw [write_assignEnds literals _ rfl items tests assigns, refill_separated]
    · next outside =>
      split
      · rfl
      · rw [write_assignItems literals w outside items tests assigns]
        simp
  | cases whens otherwise, tests, ends, assigns => by
    have outside : w.fragment ≠ .rangeEnds := fun inside => by simpa [isRange] using ends inside
    simp only [ranged, Bool.and_eq_true] at tests
    have branches := write_assignBranches literals w outside whens tests.1
      fun p member => assigns p (by simp [leaves, member])
    have other := write_assignOtherwise literals w outside otherwise tests.2
      fun p member => assigns p (by simp [leaves, member])
    simp [assign, write, branches, other]
  | ordered order e, tests, ends, assigns => by
    have outside : w.fragment ≠ .rangeEnds := fun inside => by simpa [isRange] using ends inside
    have operand := write_assign literals w e tests (absurd · outside) assigns
    simp only [assign, write, operand, refill_append]
    split <;> simp

theorem write_assignItems (literals : ∀ x, ν (.literal x) = .literal x) (w : Manner)
    (outside : w.fragment ≠ .rangeEnds) : (items : List Expr) → itemsRanged items →
      (∀ p, .param p ∈ itemLeaves items → Assigns ν σ p) →
      writeItems w (assignItems σ items) = (writeItems w items).map (refill ν)
  | [], _, _ => rfl
  | e :: rest, tests, assigns => by
    simp only [itemsRanged, Bool.and_eq_true] at tests
    have head := write_assign literals w e tests.1 (absurd · outside)
      fun p member => assigns p (by simp [itemLeaves, member])
    have tail := write_assignItems literals w outside rest tests.2
      fun p member => assigns p (by simp [itemLeaves, member])
    simp only [assignItems, writeItems, head, tail, List.map_cons]

theorem write_assignEnds (literals : ∀ x, ν (.literal x) = .literal x) (w : Manner)
    (plain : w.fragment = .plain) : (items : List Expr) → itemsRanged items →
      (∀ p, .param p ∈ itemLeaves items → Assigns ν σ p) →
      writeEnds w (assignItems σ items) = (writeEnds w items).map (refill ν)
  | [], _, _ => rfl
  | e :: rest, tests, assigns => by
    simp only [itemsRanged, Bool.and_eq_true] at tests
    have head := write_assign literals w e tests.1 (fun inside => by simp [plain] at inside)
      fun p member => assigns p (by simp [itemLeaves, member])
    have tail := write_assignEnds literals w plain rest tests.2
      fun p member => assigns p (by simp [itemLeaves, member])
    simp only [assignItems, writeEnds, head, tail, precedence_assign, List.map_cons,
      refill_parenthesized]

theorem write_assignBranches (literals : ∀ x, ν (.literal x) = .literal x) (w : Manner)
    (outside : w.fragment ≠ .rangeEnds) : (whens : List (Expr × Expr)) → branchesRanged whens →
      (∀ p, .param p ∈ branchLeaves whens → Assigns ν σ p) →
      writeBranches w (assignBranches σ whens) = refill ν (writeBranches w whens)
  | [], _, _ => rfl
  | (condition, e) :: rest, tests, assigns => by
    simp only [branchesRanged, Bool.and_eq_true] at tests
    obtain ⟨⟨conditionTests, branchTests⟩, restTests⟩ := tests
    have first := write_assign literals w condition conditionTests (absurd · outside)
      fun p member => assigns p (by simp [branchLeaves, member])
    have second := write_assign literals w e branchTests (absurd · outside)
      fun p member => assigns p (by simp [branchLeaves, member])
    have tail := write_assignBranches literals w outside rest restTests
      fun p member => assigns p (by simp [branchLeaves, member])
    simp only [assignBranches, writeBranches, first, second, tail, refill_text, refill_append]

theorem write_assignOtherwise (literals : ∀ x, ν (.literal x) = .literal x) (w : Manner)
    (outside : w.fragment ≠ .rangeEnds) : (otherwise : Option Expr) →
      otherwiseRanged otherwise →
      (∀ p, .param p ∈ otherwiseLeaves otherwise → Assigns ν σ p) →
      writeOtherwise w (assignOtherwise σ otherwise) = refill ν (writeOtherwise w otherwise)
  | none, _, _ => rfl
  | some e, tests, assigns => by
    have branch := write_assign literals w e tests (absurd · outside) assigns
    simp only [assignOtherwise, writeOtherwise, branch, refill_text]

end

end Expr

end

end PreparedSql
