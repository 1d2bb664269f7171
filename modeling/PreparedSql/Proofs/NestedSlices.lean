import PreparedSql.Proofs.CompiledParameters
import PreparedSql.Proofs.SliceWindow

/-! Slices of slices. A query keeps one window only, which every further slice between row
numbers narrows. The window that is written at the end leaves of any rows what the slices
leave of them one after the other: a sum of row numbers that stops at the greatest one still
lies behind all rows, and a window whose ends have crossed is empty, be it kept as it was
given or narrowed. -/
namespace PreparedSql

/-! ### Windows in windows -/

section
variable {α : Type} {rows : List α}

/-- A window up to a row takes the rows up to it, and drops the first of them. -/
theorem rowsBetween_some (low high : Nat) (rows : List α) :
    rowsBetween low (some high) rows = (rows.take high).drop low :=
  List.drop_take.symm

/-- Behind the rows that are taken there are none to drop. -/
theorem drop_min_take (count stop : Nat) (rows : List α) :
    (rows.take stop).drop (min count stop) = (rows.take stop).drop count := by
  rcases Nat.le_total count stop with within | beyond
  · rw [Nat.min_eq_left within]
  · have short : (rows.take stop).length ≤ stop := List.length_take_le stop rows
    rw [Nat.min_eq_right beyond, List.drop_eq_nil_of_le short,
      List.drop_eq_nil_of_le (Nat.le_trans short beyond)]

/-- A sum of row numbers that stops takes as many of rows that can be counted. -/
theorem take_addRows (bounded : rows.length ≤ Bound.greatestRow) (low count : Nat) :
    rows.take (Query.addRows low count) = rows.take (low + count) := by
  rw [Query.addRows, List.take_eq_take_iff]
  omega

theorem drop_addRows (bounded : rows.length ≤ Bound.greatestRow) (low count : Nat) :
    rows.drop (Query.addRows low count) = rows.drop (low + count) := by
  rcases Nat.le_total (low + count) Bound.greatestRow with within | beyond
  · rw [Query.addRows, Nat.min_eq_left within]
  · rw [Query.addRows, Nat.min_eq_right beyond, List.drop_eq_nil_of_le bounded,
      List.drop_eq_nil_of_le (Nat.le_trans bounded beyond)]

/-- The narrower window leaves what the inner one leaves of the rows of the outer one. -/
theorem rowsBetween_narrower (bounded : rows.length ≤ Bound.greatestRow) (low : Nat)
    (high : Option Nat) (innerLow : Nat) (innerHigh : Option Nat) :
    rowsBetween (Query.narrower low high innerLow innerHigh).1
        (Query.narrower low high innerLow innerHigh).2 rows =
      rowsBetween innerLow innerHigh (rowsBetween low high rows) := by
  -- What the outer window takes at all can be counted as well.
  have counted (stop : Nat) : (rows.take stop).length ≤ Bound.greatestRow :=
    Nat.le_trans (List.length_take_le' stop rows) bounded
  cases innerHigh with
  | none =>
    cases high with
    | none =>
      show rows.drop (Query.addRows low innerLow) = (rows.drop low).drop innerLow
      rw [drop_addRows bounded, List.drop_drop]
    | some high =>
      show rowsBetween (min (Query.addRows low innerLow) high) (some high) rows =
        (rowsBetween low (some high) rows).drop innerLow
      rw [rowsBetween_some, rowsBetween_some, drop_min_take, drop_addRows (counted high),
        List.drop_drop]
  | some innerHigh =>
    cases high with
    | none =>
      let stop := Query.addRows low innerHigh
      show rowsBetween (min (Query.addRows low innerLow) stop) (some stop) rows =
        rowsBetween innerLow (some innerHigh) (rows.drop low)
      rw [rowsBetween_some, rowsBetween_some, drop_min_take, drop_addRows (counted stop),
        take_addRows bounded, List.take_drop, List.drop_drop]
    | some high =>
      let stop := min high (Query.addRows low innerHigh)
      show rowsBetween (min (Query.addRows low innerLow) stop) (some stop) rows =
        rowsBetween innerLow (some innerHigh) (rowsBetween low (some high) rows)
      have taken : rows.take stop = (rows.take high).take (low + innerHigh) := by
        rw [← take_addRows (counted high), List.take_take, Nat.min_comm]
      rw [rowsBetween_some, rowsBetween_some, rowsBetween_some, drop_min_take,
        drop_addRows (counted stop), taken, List.take_drop, List.drop_drop]

end

/-! ### Slices of a query -/

namespace Query

variable {q : Query} {j : Journal}

/-- The query with another window between row numbers. -/
def windowed (q : Query) (low : Nat) (high : Option Nat) : Query :=
  { q with low := .row low, high := high.map .row }

theorem windowed_of_whole (whole : q.isSliced = false) : q.windowed 0 none = q := by
  obtain ⟨fromZero, noHigh⟩ := bounds_of_whole whole
  rw [windowed, ← fromZero, Option.map_none, ← noHigh]

theorem rowNumber?_rows (high : Option Nat) : rowNumber? (high.map .row) = .ok high := by
  cases high <;> rfl

/-- A further slice between row numbers succeeds, and leaves of the rows of the query what the
slice says. -/
theorem exec_slice_windowed (q : Query) (low : Nat) (high : Option Nat) (innerLow : Nat)
    (innerHigh : Option Nat) (j : Journal) : ∃ low' high',
      (slice (.row innerLow) (innerHigh.map .row)).exec (q.windowed low high) j =
        ((.ok (), q.windowed low' high'), j) ∧
      ∀ {α : Type} (rows : List α), rows.length ≤ Bound.greatestRow →
        rowsBetween low' high' rows =
          rowsBetween innerLow innerHigh (rowsBetween low high rows) := by
  cases sliced : (q.windowed low high).isSliced with
  | true =>
    refine ⟨(narrower low high innerLow innerHigh).1, (narrower low high innerLow innerHigh).2, ?_,
      fun rows bounded => rowsBetween_narrower bounded low high innerLow innerHigh⟩
    have outer : rowNumber? (q.windowed low high).high = .ok high := rowNumber?_rows high
    have inner : rowNumber? (innerHigh.map .row) = .ok innerHigh := rowNumber?_rows innerHigh
    rw [slice, Action.exec_bind, Action.exec_get]
    dsimp only
    rw [if_pos sliced, outer, inner]
    rfl
  | false =>
    -- The first slice is kept as it is given.
    obtain ⟨fromZero, noHigh⟩ := bounds_of_whole sliced
    obtain rfl : low = 0 := Bound.row.inj fromZero
    obtain rfl : high = none := Option.map_eq_none_iff.mp noHigh
    refine ⟨innerLow, innerHigh, ?_, fun rows bounded => rfl⟩
    cases innerHigh <;> rfl

end Query

/-! ### The window that is written -/

namespace Piece

/-- What is text alone adds to the text of a statement, and no hole. -/
theorem ofPieces_append {back : List Piece} (still : holes back = []) (front : List Piece) :
    Template.ofPieces (front ++ back) =
      ⟨(Template.ofPieces front).text ++ texts back, (Template.ofPieces front).holes⟩ := by
  have nothing (start : Nat) : holesFrom start back = [] := by
    rw [← List.map_eq_nil_iff, map_holesFrom, still]
  have kept (ps : List Piece) (start : Nat) :
      holesFrom start (ps ++ back) = holesFrom start ps := by
    induction ps generalizing start with
    | nil => exact nothing start
    | cons p rest ih => cases p <;> simp [holesFrom, ih]
  rw [Template.ofPieces, texts_append, kept, Template.ofPieces]

end Piece

namespace Flavor

/-- A server reads the window between row numbers so that it leaves those rows, of as many as
can be counted. -/
theorem window_rows (f : Flavor) (low : Nat) (high : Option Nat) :
    ∃ w, Window.read? (Piece.texts (f.window (.row low) (high.map .row))) = some w ∧
      ∀ {α : Type} (rows : List α), rows.length ≤ Bound.greatestRow →
        w.select rows = rowsBetween low high rows := by
  cases high with
  | none =>
    by_cases start : low = 0
    · rw [start]
      exact ⟨{}, Window.read?_whole, fun _ _ => rfl⟩
    · have behind : (Bound.row low).isZero = false := by simpa [Bound.isZero] using start
      cases f with
      | generic | postgres =>
        refine ⟨{ offset := low }, ?_, fun _ _ => rfl⟩
        rw [← Window.read?_offset]
        simp [window, behind, Piece.texts, Bound.write]
      | mysql =>
        refine ⟨{ limit := some 18446744073709551615, offset := low }, ?_, fun rows bounded => ?_⟩
        · have written : Piece.texts (mysql.window (.row low) none) =
              "\nLIMIT 18446744073709551615 OFFSET " ++ toString low := by
            simp [window, behind, Piece.texts, Bound.write]
          rw [Option.map_none, written]
          exact Window.read?_limit_offset ' ' (by decide) 18446744073709551615 low
        · -- The greatest limit leaves out no row that can be counted.
          have greatest : Bound.greatestRow = 18446744073709551615 := rfl
          have all : (rows.drop low).length ≤ 18446744073709551615 := by
            rw [List.length_drop]
            omega
          exact List.take_of_length_le all
  | some high =>
    by_cases start : 0 < low
    · refine ⟨{ limit := some (high - low), offset := low }, ?_, fun _ _ => rfl⟩
      rw [← Window.read?_limit_offset '\n' (by decide)]
      simp [window, start, Piece.texts, String.append_assoc]
    · obtain rfl : low = 0 := Nat.eq_zero_of_not_pos start
      refine ⟨{ limit := some high }, ?_, fun _ _ => rfl⟩
      rw [← Window.read?_limit]
      simp [window, Piece.texts]

end Flavor

namespace Query

/-- With a window between row numbers, the statement of a whole query has a clause behind it. -/
theorem selectTemplate_windowed {q : Query} (whole : q.isSliced = false) (low : Nat)
    (high : Option Nat) (f : Flavor) :
    (q.windowed low high).selectTemplate f =
      ⟨(q.selectTemplate f).text ++ Piece.texts (f.window (.row low) (high.map .row)),
        (q.selectTemplate f).holes⟩ := by
  let front := f.front (q.selection q.projection)
  have still : Piece.holes (f.window (.row low) (high.map .row)) = [] :=
    f.holes_window_rows rfl fun b member => by
      obtain ⟨n, _, rfl⟩ := Option.map_eq_some_iff.mp member
      rfl
  have alone : q.selectTemplate f = Template.ofPieces front := by
    obtain ⟨fromZero, noHigh⟩ := bounds_of_whole whole
    have nothing : f.window q.low q.high = [] := by
      rw [fromZero, noHigh]
      rfl
    rw [selectTemplate, Flavor.select_eq]
    show Template.ofPieces (front ++ f.window q.low q.high) = Template.ofPieces front
    rw [nothing, List.append_nil]
  rw [alone, ← Piece.ofPieces_append still, selectTemplate, Flavor.select_eq]
  rfl

end Query

/-! ### Slices one after the other -/

/-- A slice between row numbers, as callers ask for it. -/
inductive Cut where
  | slice (low : Nat) (high : Option Nat)
  | limit (count : Nat)
  | offset (skip : Nat)

namespace Cut

variable {α : Type}

/-- The change of a query set. -/
def builder : Cut → Builder
  | slice low high => .slice (.row low) (high.map .row)
  | limit count => .limit (.row count)
  | offset skip => .offset (.row skip)

/-- The rows that are left. -/
def keep (rows : List α) : Cut → List α
  | slice low high => rowsBetween low high rows
  | limit count => rows.take count
  | offset skip => rows.drop skip

/-- The changes of a query set, one after the other. -/
def sliced (cuts : List Cut) (s : QuerySet) : Action Store QuerySet :=
  cuts.foldlM (fun s cut => cut.builder.apply s) s

/-- Every cut is a slice, and leaves the rows of it. -/
theorem change_eq (cut : Cut) : ∃ low high,
    cut.builder.change = Query.slice (.row low) (high.map .row) ∧
      ∀ {α : Type} (rows : List α), cut.keep rows = rowsBetween low high rows := by
  cases cut with
  | slice low high => exact ⟨low, high, rfl, fun _ => rfl⟩
  | limit count => exact ⟨0, some count, rfl, fun _ => rfl⟩
  | offset skip => exact ⟨skip, none, rfl, fun _ => rfl⟩

/-- One cut succeeds, with a cell of its own. -/
theorem exec_apply (cut : Cut) (q : Query) (low : Nat) (high : Option Nat) (t : Store)
    (j : Journal) : ∃ memo low' high' t',
      (cut.builder.apply (.building (q.windowed low high))).exec t j =
        ((.ok (.building (Query.windowed { q with memo := memo } low' high')), t'), j) ∧
      ∀ {α : Type} (rows : List α), rows.length ≤ Bound.greatestRow →
        rowsBetween low' high' rows = cut.keep (rowsBetween low high rows) := by
  obtain ⟨operation, applied⟩ := cut.builder.apply_eq (.building (q.windowed low high))
  obtain ⟨innerLow, innerHigh, changed, kept⟩ := cut.change_eq
  obtain ⟨low', high', run, narrowed⟩ :=
    Query.exec_slice_windowed { q with memo := t.nextMemo } low high innerLow innerHigh j
  refine ⟨t.nextMemo, low', high', { t with nextMemo := t.nextMemo + 1 }, ?_,
    fun rows bounded => ?_⟩
  · have copy : ({ q.windowed low high with memo := t.nextMemo } : Query) =
        Query.windowed { q with memo := t.nextMemo } low high := rfl
    rw [applied, QuerySet.exec_derive, changed, copy, run]
    rfl
  · rw [kept, narrowed rows bounded]

/-- A sequence of cuts succeeds, and leaves in the end what each of them leaves of the rows
before it. -/
theorem exec_sliced (cuts : List Cut) (q : Query) (low : Nat) (high : Option Nat) (t : Store)
    (j : Journal) : ∃ memo low' high' t',
      (sliced cuts (.building (q.windowed low high))).exec t j =
        ((.ok (.building (Query.windowed { q with memo := memo } low' high')), t'), j) ∧
      ∀ {α : Type} (rows : List α), rows.length ≤ Bound.greatestRow →
        rowsBetween low' high' rows = cuts.foldl keep (rowsBetween low high rows) := by
  induction cuts generalizing q low high t with
  | nil => exact ⟨q.memo, low, high, t, rfl, fun _ _ => rfl⟩
  | cons cut cuts ih =>
    obtain ⟨memo, low', high', t', first, kept⟩ := exec_apply cut q low high t j
    obtain ⟨memo', low'', high'', t'', rest, left⟩ := ih { q with memo := memo } low' high' t'
    refine ⟨memo', low'', high'', t'', ?_, fun rows bounded => ?_⟩
    · rw [sliced, List.foldlM_cons, Action.exec_bind, first]
      exact rest
    · rw [left rows bounded, kept rows bounded, List.foldl_cons]

end Cut

/-- Slices compose. A whole query set is sliced without failure, by any slices between row
numbers; its statement is the one of the whole query with a clause behind it, in which a
server reads a window that leaves of any rows, as many as can be counted, what the slices leave
one after the other. -/
theorem QuerySet.slices_compose {q : Query} (whole : q.isSliced = false) (cuts : List Cut)
    (t : Store) (j : Journal) : ∃ q' t',
      (Cut.sliced cuts (.building q)).exec t j = ((.ok (.building q'), t'), j) ∧
      ∀ f : Flavor, ∃ clause w,
        q'.selectTemplate f = ⟨(q.selectTemplate f).text ++ clause, (q.selectTemplate f).holes⟩ ∧
        Window.read? clause = some w ∧
        ∀ {α : Type} (rows : List α), rows.length ≤ Bound.greatestRow →
          w.select rows = cuts.foldl Cut.keep rows := by
  obtain ⟨memo, low, high, t', run, left⟩ := Cut.exec_sliced cuts q 0 none t j
  rw [Query.windowed_of_whole whole] at run
  refine ⟨_, t', run, fun f => ?_⟩
  obtain ⟨w, read, shown⟩ := f.window_rows low high
  refine ⟨_, w, ?_, read, fun rows bounded => ?_⟩
  · exact Query.selectTemplate_windowed (q := { q with memo := memo }) whole low high f
  · rw [shown rows bounded, left rows bounded]
    rfl

/-- Of the second to the fifth author, without the first of them, the first two. -/
def innerAuthors : List Cut :=
  [.slice 1 (some 5), .offset 1, .limit 2]

theorem innerAuthors_slices_compose : ∃ q' t' clause w,
    (Cut.sliced innerAuthors (.building (Query.ofModel Library.Author.model))).exec {} [] =
        ((.ok (.building q'), t'), []) ∧
      q'.selectTemplate .mysql =
        ⟨((Query.ofModel Library.Author.model).selectTemplate .mysql).text ++ clause,
          ((Query.ofModel Library.Author.model).selectTemplate .mysql).holes⟩ ∧
      Window.read? clause = some w ∧ w.select [1, 2, 3, 4, 5, 6] = [3, 4] := by
  obtain ⟨q', t', run, written⟩ := QuerySet.slices_compose
    (q := Query.ofModel Library.Author.model) (by rfl) innerAuthors {} []
  obtain ⟨clause, w, text, read, left⟩ := written .mysql
  exact ⟨q', t', clause, w, run, text, read, left [1, 2, 3, 4, 5, 6] (by decide)⟩

end PreparedSql
