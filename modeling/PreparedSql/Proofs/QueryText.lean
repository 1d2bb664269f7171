import PreparedSql.Proofs.ExpressionLeaves
import PreparedSql.Proofs.ServedBody

/-! The statement of a query is a front, which its expressions and names make,
and the window of its slice behind it. The holes of the front are those of the
leaves of its expressions. -/
namespace PreparedSql

open Piece

namespace Flavor

/-- A selection without its window. -/
def front (f : Flavor) (s : Selection) : List Piece :=
  .text (if s.distinct then "SELECT DISTINCT " else "SELECT ")
    :: (separated ", " (s.columns.map f.projected)
      ++ .text ("\nFROM " ++ f.table s.table)
      :: (f.whereClause s.condition ++ f.orderClause s.orderBy))

theorem select_eq (f : Flavor) (s : Selection) :
    f.select s = f.front s ++ f.window s.low s.high := by
  simp [select, front]

/-- The holes of a window are the number of rows between its bounds, where a
parameter takes part, and those of the bounds that are written. -/
theorem holes_window (f : Flavor) (low : Bound) (high : Option Bound) :
    holes (f.window low high) = match high with
      | none => low.leaves.flatMap Leaf.holes
      | some b =>
        if low.isZero then b.leaves.flatMap Leaf.holes
        else if low.isParam || b.isParam then .span low b :: low.leaves.flatMap Leaf.holes
        else [] := by
  cases high with
  | none =>
    simp only [window]
    split
    · next fromZero =>
      cases low with
      | row n => rfl
      | param p => cases fromZero
    · rw [holes_text, Bound.holes_write]
  | some b =>
    cases low with
    | row n =>
      cases b with
      | row m =>
        simp only [window, Bound.isParam, Bound.leaves]
        split <;> split <;> simp
      | param p =>
        simp only [window, Bound.isParam]
        split <;> simp [Bound.holes_write]
    | param p => simp [window, Bound.isZero, Bound.isParam, Bound.holes_write]

/-- A window between row numbers is nothing but text. -/
theorem holes_window_rows (f : Flavor) {low : Bound} {high : Option Bound}
    (lowRow : low.isParam = false) (highRow : ∀ b ∈ high, b.isParam = false) :
    holes (f.window low high) = [] := by
  have nothing {b : Bound} (row : b.isParam = false) : b.leaves = [] := by
    cases b with
    | row n => rfl
    | param p => cases row
  rw [holes_window]
  cases high with
  | none => simp [nothing lowRow]
  | some b => simp [nothing (highRow b rfl), lowRow, highRow b rfl]

/-- The holes of a window are those of its bounds, and the number of rows between
them. -/
theorem mem_holes_window {f : Flavor} {low : Bound} {high : Option Bound} {h : Hole}
    (member : h ∈ holes (f.window low high)) :
    (∃ b, high = some b ∧ h = .span low b) ∨
      h ∈ (low.leaves ++ high.toList.flatMap Bound.leaves).flatMap Leaf.holes := by
  rw [List.flatMap_append, List.mem_append]
  rw [holes_window] at member
  cases high with
  | none => exact .inr (.inl member)
  | some b =>
    dsimp only at member
    simp only [Option.toList_some, List.flatMap_singleton]
    split at member
    · exact .inr (.inr member)
    · split at member
      · rcases List.mem_cons.mp member with span | inLow
        · exact .inl ⟨b, rfl, span⟩
        · exact .inr (.inl inLow)
      · cases member

end Flavor

/-- The leaves of a selection in the order in which it is written, its window apart. -/
def Selection.leaves (s : Selection) : List Leaf :=
  s.columns.flatMap (·.1.leaves) ++ (s.condition.toList.flatMap Expr.leaves ++
    s.orderBy.flatMap Expr.leaves)

namespace Flavor

variable (f : Flavor)

theorem holes_projected (column : Expr × Option String) :
    holes (f.projected column) = column.1.leaves.flatMap Leaf.holes := by
  obtain ⟨e, alias_⟩ := column
  cases alias_ <;> simp [projected, Expr.holes_write]

theorem holes_whereClause (condition : Option Expr) :
    holes (f.whereClause condition) =
      (condition.toList.flatMap Expr.leaves).flatMap Leaf.holes := by
  cases condition with
  | none => rfl
  | some e => simp [whereClause, Expr.holes_write]

/-- Expressions that are written one by one. -/
theorem holes_written {α : Type} (w : Manner) (expr : α → Expr) (xs : List α) :
    (xs.flatMap fun x => holes ((expr x).write w)) =
      (xs.flatMap fun x => (expr x).leaves).flatMap Leaf.holes := by
  rw [List.flatMap_assoc]
  exact congrArg (xs.flatMap ·) (funext fun x => (expr x).holes_write w)

theorem holes_orderClause (orderBy : List Expr) :
    holes (f.orderClause orderBy) = (orderBy.flatMap Expr.leaves).flatMap Leaf.holes := by
  unfold orderClause
  split
  · next empty =>
    rw [List.isEmpty_iff.mp empty]
    rfl
  · rw [holes_text, holes_separated, List.flatMap_map]
    exact holes_written _ id orderBy

/-- The holes of the front of a selection are those of its leaves. -/
theorem holes_front (s : Selection) : holes (f.front s) = s.leaves.flatMap Leaf.holes := by
  have columns : (s.columns.map f.projected).flatMap holes =
      (s.columns.flatMap (·.1.leaves)).flatMap Leaf.holes := by
    rw [List.flatMap_map, List.flatMap_assoc]
    exact congrArg (s.columns.flatMap ·) (funext fun column => f.holes_projected column)
  simp only [front, holes_text, holes_append, holes_separated, columns, holes_whereClause,
    holes_orderClause, Selection.leaves, List.flatMap_append]

end Flavor

namespace Query

/-- The expressions of the query, in the order in which they are written. -/
def expressions (q : Query) : List Expr :=
  q.annotations.map (·.2) ++ q.condition.toList ++ q.orderBy.map (·.2)

/-- The leaves that the front of the statement is written from. -/
def frontLeaves (q : Query) : List Leaf :=
  q.expressions.flatMap Expr.leaves

/-- The leaves of the expressions and of the bounds. -/
def leaves (q : Query) : List Leaf :=
  q.frontLeaves ++ (q.low.leaves ++ q.high.toList.flatMap Bound.leaves)

theorem mem_leaves_of_bound {q : Query} {p : Param} (member : .param p ∈ q.low :: q.high.toList) :
    .param p ∈ q.leaves := by
  refine List.mem_append_right _ ?_
  rcases List.mem_cons.mp member with low | high
  · exact List.mem_append_left _ (Bound.mem_leaves.mpr low.symm)
  · exact List.mem_append_right _ (List.mem_flatMap.mpr ⟨_, high, Bound.mem_leaves.mpr rfl⟩)

/-- Row numbers add no leaves. -/
theorem leaves_of_rows {q : Query} (lowRow : q.low.isParam = false)
    (highRow : ∀ b ∈ q.high, b.isParam = false) : q.leaves = q.frontLeaves := by
  have low : q.low.leaves = [] := by
    cases bound : q.low with
    | row n => rfl
    | param p => simp [bound, Bound.isParam] at lowRow
  have high : q.high.toList.flatMap Bound.leaves = [] := by
    rw [List.flatMap_eq_nil_iff]
    intro b member
    cases b with
    | row n => rfl
    | param p => cases highRow _ (Option.mem_toList.mp member)
  rw [leaves, low, high, List.append_nil, List.append_nil]

/-- The calendar has each literal of the query. -/
def inCalendar (q : Query) : Bool :=
  q.expressions.all Expr.inCalendar

/-- The token of a parameter of the query is the token of no other registered
parameter. -/
def Identified (q : Query) : Prop :=
  ∀ p, .param p ∈ q.leaves → ∀ r ∈ q.params.params, r.token = p.token → r = p

/-- Every parameter of the query, and every registered one, is the one that was
issued with its token. -/
def Issued (issued : String → Param) (q : Query) : Prop :=
  ∀ p, .param p ∈ q.leaves ∨ p ∈ q.params.params → issued p.token = p

theorem identified_of_issued {issued : String → Param} {q : Query} (known : q.Issued issued) :
    q.Identified := by
  intro p occurs r held same
  rw [← known r (.inr held), same, known p (.inl occurs)]

/-- What the query selects, for a database. -/
abbrev selects (q : Query) : Selection :=
  q.selection q.projection

private theorem leaves_of_columns (cs : List Column) :
    (cs.flatMap fun c => (Expr.column c).leaves) = [] :=
  List.flatMap_eq_nil_iff.mpr fun _ _ => rfl

/-- Columns are written without leaves, annotations with their own. -/
theorem leaves_projection (q : Query) :
    q.projection.flatMap (·.1.leaves) = q.annotations.flatMap (·.2.leaves) := by
  rw [projection, List.flatMap_append, List.flatMap_map, List.flatMap_map, leaves_of_columns,
    List.nil_append]

theorem leaves_selects (q : Query) : q.selects.leaves = q.frontLeaves := by
  have orderings : q.selects.orderBy.flatMap Expr.leaves = q.orderBy.flatMap (·.2.leaves) :=
    List.flatMap_map ..
  have columns : q.selects.columns.flatMap (·.1.leaves) = q.annotations.flatMap (·.2.leaves) :=
    q.leaves_projection
  rw [Selection.leaves, columns, orderings, frontLeaves, expressions, List.flatMap_append,
    List.flatMap_append, List.flatMap_map, List.flatMap_map, List.append_assoc]
  rfl

/-- The holes of the front are those of the leaves. -/
theorem holes_front (q : Query) (f : Flavor) :
    holes (f.front q.selects) = q.frontLeaves.flatMap Leaf.holes := by
  rw [f.holes_front, leaves_selects]

/-- The calendar has what the leaves of the front stand for. -/
theorem inCalendar_front {q : Query} :
    q.frontLeaves.all Leaf.inCalendar = true ↔ q.inCalendar = true := by
  rw [frontLeaves, List.all_flatMap]
  rfl

end Query

namespace Prepared

theorem pieces_eq (v : Vendor) (q : Query) :
    pieces v q = v.flavor.front q.selects ++ v.flavor.window q.low q.high :=
  v.flavor.select_eq q.selects

/-- The holes of a leaf ask for elements that its parameter has. -/
theorem fits_leaf {q : Query} {supplied : SlotSource → Prop} {h : Hole} (identified : q.Identified)
    (member : h ∈ q.leaves.flatMap Leaf.holes) : Fits q.params supplied h := by
  obtain ⟨leaf, inside, member⟩ := List.mem_flatMap.mp member
  cases leaf with
  | literal x =>
    obtain rfl := List.mem_singleton.mp member
    trivial
  | param p =>
    obtain ⟨index, bounded, rfl⟩ := List.mem_map.mp member
    intro r registered
    obtain ⟨held, named⟩ := byToken?_some registered
    obtain rfl := identified p inside r held named
    exact List.mem_range.mp bounded

/-- The holes of a leaf are registered with its parameter. -/
theorem registered_leaf {q : Query} {h : Hole}
    (registered : ∀ p, .param p ∈ q.leaves → ∃ r, q.params.byToken? p.token = some r)
    (member : h ∈ q.leaves.flatMap Leaf.holes) : Registered q.params h := by
  obtain ⟨leaf, inside, member⟩ := List.mem_flatMap.mp member
  cases leaf with
  | literal x =>
    obtain rfl := List.mem_singleton.mp member
    trivial
  | param p =>
    obtain ⟨index, _, rfl⟩ := List.mem_map.mp member
    exact registered p inside

/-- A hole of the statement is a leaf's, or the number of rows of the slice. -/
theorem mem_pieces {v : Vendor} {q : Query} {h : Hole} (member : .hole h ∈ pieces v q) :
    (∃ b, q.high = some b ∧ h = .span q.low b) ∨ h ∈ q.leaves.flatMap Leaf.holes := by
  rw [pieces_eq, ← mem_holes, holes_append, q.holes_front] at member
  rw [Query.leaves, List.flatMap_append]
  rcases List.mem_append.mp member with front | window
  · exact .inr (List.mem_append_left _ front)
  · rcases Flavor.mem_holes_window window with span | bound
    · exact .inl span
    · exact .inr (List.mem_append_right _ bound)

/-- Every hole of the statement fits, when the number of rows is supplied. -/
theorem fits_pieces {v : Vendor} {q : Query} {supplied : SlotSource → Prop}
    (identified : q.Identified) (rows : ∀ b ∈ q.high, supplied (.span q.low b)) :
    ∀ h, .hole h ∈ pieces v q → Fits q.params supplied h := by
  intro h member
  rcases mem_pieces member with ⟨b, sliced, rfl⟩ | leaf
  · exact rows b sliced
  · exact fits_leaf identified leaf

/-- Every hole of the statement is registered with the parameters of the query. -/
theorem registered_pieces {v : Vendor} {q : Query}
    (registered : ∀ p, .param p ∈ q.leaves → ∃ r, q.params.byToken? p.token = some r) :
    ∀ h ∈ holes (pieces v q), Registered q.params h := by
  intro h member
  rcases mem_pieces (mem_holes.mp member) with ⟨b, _, rfl⟩ | leaf
  · trivial
  · exact registered_leaf registered leaf

/-- The calendar has what belongs into the holes of a statement when it has the literals of the
query. -/
theorem inCalendar_pieces {v : Vendor} {q : Query} :
    (∀ h ∈ holes (pieces v q), h.inCalendar = true) ↔ q.inCalendar = true := by
  have bounds (b : Bound) : b.leaves.all Leaf.inCalendar = true := by
    cases b <;> rfl
  have window : ∀ h ∈ holes (v.flavor.window q.low q.high), h.inCalendar = true := by
    intro h member
    rcases Flavor.mem_holes_window member with ⟨b, _, rfl⟩ | bound
    · rfl
    · refine Leaf.inCalendar_flatMap.mpr ?_ h bound
      rw [List.all_append, List.all_flatMap, bounds, Bool.true_and]
      exact List.all_eq_true.mpr fun b _ => bounds b
  rw [pieces_eq, holes_append, q.holes_front, List.forall_mem_append, Leaf.inCalendar_flatMap,
    Query.inCalendar_front]
  exact and_iff_left window

/-- The body of a query whose parameters are registered is written just when the calendar has its
literals. -/
theorem writtenWhen_body (v : Vendor) (types : Types) {q : Query}
    (registered : ∀ p, .param p ∈ q.leaves → ∃ r, q.params.byToken? p.token = some r) :
    WrittenWhen (q.inCalendar = true) (write v types q) :=
  writtenWhen_congr inCalendar_pieces (writtenWhen_write v types (registered_pieces registered))

/-- Where the body is written, some parameter is registered with the token of every occurrence. -/
theorem registered_front {v : Vendor} {types : Types} {q : Query} {a : Artifact}
    (written : write v types q = .ok a) {p : Param} (occurs : .param p ∈ q.frontLeaves) :
    ∃ r, q.params.byToken? p.token = some r := by
  refine registered_of_written written (.element p.token 0) ?_
  rw [pieces_eq, holes_append, q.holes_front]
  refine List.mem_append_left _ (List.mem_flatMap.mpr ⟨_, occurs, ?_⟩)
  simpa [Leaf.holes] using p.slots_pos

/-- The calendar has the literals of a query whose body is written. -/
theorem inCalendar_of_written {v : Vendor} {types : Types} {q : Query} {a : Artifact}
    (written : write v types q = .ok a) : q.inCalendar = true :=
  inCalendar_pieces.mp
    (holds_of_written (writtenWhen_write v types (registered_of_written written)) written)

/-- The statements of a query have the same holes, whatever the database. -/
theorem holes_pieces (v v' : Vendor) (q : Query) : holes (pieces v' q) = holes (pieces v q) := by
  rw [pieces_eq, pieces_eq, holes_append, holes_append, q.holes_front, q.holes_front,
    Flavor.holes_window, Flavor.holes_window]

/-- What is written for a database is written for any other one. -/
theorem write_elsewhere {v : Vendor} {types : Types} {q : Query} {a : Artifact} (v' : Vendor)
    (written : write v types q = .ok a) : ∃ a', write v' types q = .ok a' := by
  have registered := registered_of_written written
  rw [← holes_pieces v v' q] at registered
  exact written_of_holds (writtenWhen_write v' types registered)
    (inCalendar_pieces.mpr (inCalendar_of_written written))

/-- A query whose parameters are registered and whose literals the calendar has compiles when its
walk types the parameters. -/
theorem compile_total {v : Vendor} {q : Query} {types types' : Types} {j j' : Journal}
    (registered : ∀ p, .param p ∈ q.leaves → ∃ r, q.params.byToken? p.token = some r)
    (charted : q.inCalendar = true)
    (walked : (q.walk resolver).exec types j = ((.ok (), types'), j'))
    (typed : ∀ p ∈ q.params.params, types'.fieldType? p ≠ none) :
    ∃ a j'', (compile v q).exec types j = ((.ok a, types'), j'') := by
  obtain ⟨a, wrote⟩ := written_of_holds (writtenWhen_body v types' registered) charted
  exact ⟨a, compile_ok_iff.mpr ⟨⟨j', walked⟩, typed, wrote⟩⟩

end Prepared

end PreparedSql
