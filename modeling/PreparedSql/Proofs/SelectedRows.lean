import Mathlib.Data.List.Pairwise
import PreparedSql.Proofs.NestedSlices

/-! The rows that a selection asks for. A database says of which rows a condition is true,
what an expression is worth at a row, and how values sort; from that follows what it may
answer: the rows of the condition, without duplicates where they are not wanted, in an order
that agrees with the orderings, cut to the window. Rows that tie may come in any order, so an
answer is settled as far as the orderings tell apart what is shown. -/
namespace PreparedSql

/-- What a database makes of the rows of a table. -/
structure Engine (Row : Type) where
  /-- The condition is true of the row. -/
  admits : Expr → Row → Bool
  worth : Expr → Row → Value
  /-- How values sort upwards. -/
  compare : Value → Value → Ordering
  lawful : Std.TransCmp compare

namespace Engine

variable {Row : Type} (db : Engine Row)

/-- How one ordering sorts two rows. -/
def alongKey (key : Expr) (r t : Row) : Ordering :=
  match key with
  | .ordered .descending e => (db.compare (db.worth e r) (db.worth e t)).swap
  | .ordered .ascending e | e => db.compare (db.worth e r) (db.worth e t)

/-- How orderings sort two rows; a later one decides between rows that tie in the earlier. -/
def along : List Expr → Row → Row → Ordering
  | [], _, _ => .eq
  | key :: keys, r, t => (db.alongKey key r t).then (along keys r t)

theorem lawful_alongKey (key : Expr) : Std.TransCmp (db.alongKey key) := by
  have upwards (e : Expr) : Std.TransCmp fun r t => db.compare (db.worth e r) (db.worth e t) :=
    { eq_swap := db.lawful.eq_swap, isLE_trans := db.lawful.isLE_trans }
  cases key with
  | ordered order e =>
    cases order with
    | ascending => exact upwards e
    | descending =>
      have downwards : db.alongKey (.ordered .descending e) =
          fun r t => db.compare (db.worth e t) (db.worth e r) :=
        funext fun r => funext fun t => db.lawful.eq_swap.symm
      rw [downwards]
      exact (upwards e).opposite
  | _ => exact upwards _

theorem lawful_along (keys : List Expr) : Std.TransCmp (db.along keys) := by
  induction keys with
  | nil => exact { eq_swap := rfl, isLE_trans := fun _ _ => rfl }
  | cons key keys ih =>
    have first := db.lawful_alongKey key
    exact inferInstanceAs (Std.TransCmp (compareLex (db.alongKey key) (db.along keys)))

theorem along_swap (keys : List Expr) (r t : Row) :
    db.along keys t r = (db.along keys r t).swap :=
  (db.lawful_along keys).eq_swap

/-- Orderings that are all turned around sort the other way around. -/
theorem along_reversed (keys : List (Order × Expr)) (r t : Row) :
    db.along (keys.map fun (order, e) => .ordered order.reversed e) r t =
      (db.along (keys.map fun (order, e) => .ordered order e) r t).swap := by
  induction keys with
  | nil => rfl
  | cons key keys ih =>
    obtain ⟨order, e⟩ := key
    have turned : db.alongKey (.ordered order.reversed e) r t =
        (db.alongKey (.ordered order e) r t).swap := by
      cases order with
      | ascending => rfl
      | descending => exact Ordering.swap_swap.symm
    rw [List.map_cons, List.map_cons, along, along, Ordering.swap_then, turned, ih]

end Engine

namespace Selection

variable {Row : Type}

/-- What is shown of a row. -/
def shown (db : Engine Row) (s : Selection) (r : Row) : List Value :=
  s.columns.map fun column => db.worth column.1 r

/-- No projected expression tells the rows apart. -/
def alike (db : Engine Row) (s : Selection) (r t : Row) : Bool :=
  s.columns.all fun column => db.compare (db.worth column.1 r) (db.worth column.1 t) == .eq

/-- The rows of the condition, of which one is kept among duplicates where those are not
wanted. -/
def kept (db : Engine Row) (s : Selection) (table : List Row) : List Row :=
  let admitted := table.filter fun r => s.condition.all (db.admits · r)
  if s.distinct then admitted.pwFilter fun r t => ¬ s.alike db r t else admitted

/-- The rows before the window cuts them: those that are kept, in an order that agrees with
the orderings. -/
def Arranges (db : Engine Row) (s : Selection) (table : List Row) (whole : List (List Value)) :
    Prop :=
  ∃ rows : List Row, rows.Perm (s.kept db table) ∧
    rows.Pairwise (fun r t => (db.along s.orderBy r t).isLE) ∧ whole = rows.map (s.shown db)

/-- What the database may answer. A statement whose window still waits for row numbers is not
answered. -/
def Answers (db : Engine Row) (s : Selection) (table : List Row) (answer : List (List Value)) :
    Prop :=
  ∃ whole low high, s.low = .row low ∧ s.high = Option.map .row high ∧
    s.Arranges db table whole ∧ answer = rowsBetween low high whole

/-- Whatever rows tie are shown the same; so it is when no two rows of the table tie. -/
def TellsApart (db : Engine Row) (s : Selection) (table : List Row) : Prop :=
  ∀ r ∈ s.kept db table, ∀ t ∈ s.kept db table,
    db.along s.orderBy r t = .eq → s.shown db r = s.shown db t

variable {db : Engine Row} {s : Selection} {table : List Row} {whole whole' : List (List Value)}

/-- Rows in two orders that both agree with a sorting are shown the same, when rows that tie
are. -/
private theorem map_eq_of_pairwise {α β : Type} {upTo : α → α → Prop} {show_ : α → β}
    {rows rows' : List α} (perm : rows.Perm rows') (sorted : rows.Pairwise upTo)
    (sorted' : rows'.Pairwise upTo)
    (tied : ∀ r ∈ rows, ∀ t ∈ rows, upTo r t → upTo t r → show_ r = show_ t) :
    rows.map show_ = rows'.map show_ := by
  induction rows generalizing rows' with
  | nil => rw [perm.nil_eq]
  | cons r rows ih =>
    -- What the second order has in front of the first row ties with it.
    obtain ⟨front, back, rfl⟩ := List.append_of_mem (perm.subset List.mem_cons_self)
    have others : rows.Perm (front ++ back) := (perm.trans List.perm_middle).cons_inv
    obtain ⟨least, rest⟩ := List.pairwise_cons.mp sorted
    obtain ⟨_, _, across⟩ := List.pairwise_append.mp sorted'
    have ahead : ∀ x ∈ front.map show_, x = show_ r := by
      intro x shown
      obtain ⟨t, member, rfl⟩ := List.mem_map.mp shown
      have later : t ∈ rows := others.symm.subset (List.mem_append_left back member)
      exact tied t (List.mem_cons_of_mem r later) r List.mem_cons_self
        (across t member r List.mem_cons_self) (least t later)
    have without : (front ++ back).Pairwise upTo :=
      sorted'.sublist ((List.sublist_cons_self r back).append_left front)
    have equal : rows.map show_ = (front ++ back).map show_ :=
      ih others rest without fun t member u member' =>
        tied t (List.mem_cons_of_mem r member) u (List.mem_cons_of_mem r member')
    have same : front.map show_ = List.replicate front.length (show_ r) :=
      List.eq_replicate_iff.mpr ⟨List.length_map show_, ahead⟩
    rw [List.map_cons, equal, List.map_append, List.map_append, List.map_cons, same,
      ← List.cons_append, ← List.replicate_succ, List.replicate_succ', List.append_assoc]
    rfl

/-- Whatever is asked for can be arranged. -/
theorem exists_arranges (db : Engine Row) (s : Selection) (table : List Row) :
    ∃ whole, s.Arranges db table whole := by
  have lawful := db.lawful_along s.orderBy
  let upTo (r t : Row) : Bool := (db.along s.orderBy r t).isLE
  have chain (r t u : Row) (first : upTo r t = true) (second : upTo t u = true) :
      upTo r u = true :=
    lawful.isLE_trans first second
  have total (r t : Row) : (upTo r t || upTo t r) = true := by
    show ((db.along s.orderBy r t).isLE || (db.along s.orderBy t r).isLE) = true
    rw [db.along_swap s.orderBy r t]
    cases db.along s.orderBy r t <;> rfl
  refine ⟨_, (s.kept db table).mergeSort upTo, List.mergeSort_perm _ upTo, ?_, rfl⟩
  exact List.pairwise_mergeSort chain total _

/-- The orderings leave one arrangement, when they tell apart what is shown. -/
theorem arranges_unique (apart : s.TellsApart db table) (arranged : s.Arranges db table whole)
    (again : s.Arranges db table whole') : whole = whole' := by
  obtain ⟨rows, perm, sorted, rfl⟩ := arranged
  obtain ⟨rows', perm', sorted', rfl⟩ := again
  have same : rows.Perm rows' := perm.trans perm'.symm
  refine map_eq_of_pairwise same sorted sorted' fun r member t member' le ge => ?_
  refine apart r (perm.subset member) t (perm.subset member') ?_
  rw [db.along_swap] at ge
  cases compared : db.along s.orderBy r t with
  | lt => simp [compared] at ge
  | eq => rfl
  | gt => simp [compared] at le

/-- The answer is cut out of that arrangement. -/
theorem answers_iff (low : Nat) (high : Option Nat) {answer : List (List Value)}
    (apart : s.TellsApart db table) (arranged : s.Arranges db table whole)
    (from_ : s.low = .row low) (upTo : s.high = high.map .row) :
    s.Answers db table answer ↔ answer = rowsBetween low high whole := by
  constructor
  · rintro ⟨whole', low', high', from_', upTo', arranged', rfl⟩
    obtain rfl : low' = low := Bound.row.inj (from_'.symm.trans from_)
    have rows : Function.Injective Bound.row := fun _ _ => Bound.row.inj
    obtain rfl : high' = high := Option.map_injective rows (upTo'.symm.trans upTo)
    rw [arranges_unique apart arranged arranged']
  · rintro rfl
    exact ⟨whole, low, high, from_, upTo, arranged, rfl⟩

end Selection

end PreparedSql
