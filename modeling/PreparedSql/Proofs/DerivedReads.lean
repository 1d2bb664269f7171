import PreparedSql.Proofs.ReversedRows

/-! Reads that ask for some of the rows of a query set. Each of them narrows the window of the query
and sends the statement with another clause behind it. A server that answers the rows of one list, cut
to the window in the clause, answers what the read asks for among the rows that the whole query set
answers, wherever the window of the query lies and however great the numbers are. -/
namespace PreparedSql

/-! ### Clauses behind a statement -/

/-- Text alone is filled as it stands. -/
theorem Piece.fill_of_no_holes {ps : List Piece} (filling : Hole → Except Failure String)
    (closed : holes ps = []) : fill filling ps = .ok (texts ps) := by
  induction ps with
  | nil => rfl
  | cons p ps ih =>
    cases p with
    | text s =>
      rw [fill, ih closed]
      rfl
    | hole h => cases closed

/-- The statement of a query between row numbers is the one of the whole query with a clause behind
it, and there is none where there is none of the whole query. -/
theorem Query.inline_windowed (q : Query) (low : Nat) (high : Option Nat) (f : Flavor) :
    ((q.windowed low high).selectTemplate f).inline f =
      (((q.windowed 0 none).selectTemplate f).inline f).map
        (· ++ Piece.texts (f.window (.row low) (high.map .row))) := by
  have closed : Piece.holes (f.window (.row low) (high.map .row)) = [] :=
    f.holes_window_rows rfl fun b member => by
      obtain ⟨n, _, rfl⟩ := Option.map_eq_some_iff.mp member
      rfl
  have filled (low : Nat) (high : Option Nat) (filling : Hole → Except Failure String) :
      ((q.windowed low high).selectTemplate f).fill filling =
        Piece.fill filling
          (f.front (q.selection q.projection) ++ f.window (.row low) (high.map .row)) := by
    rw [Query.selectTemplate, Template.fill_ofPieces, Flavor.select_eq]
    rfl
  rw [Template.inline, filled, Template.inline, filled, Piece.fill_append,
    Piece.fill_of_no_holes _ closed]
  show _ = Except.map _ (Piece.fill _ (f.front (q.selection q.projection) ++ []))
  rw [List.append_nil]
  rfl

/-- What is read of a window is the window of what is read. -/
theorem Outcome.mapM_rowsBetween {ε α β : Type} {f : α → Except ε β} {xs : List α} {ys : List β}
    (low : Nat) (high : Option Nat) (mapped : xs.mapM f = .ok ys) :
    (rowsBetween low high xs).mapM f = .ok (rowsBetween low high ys) := by
  have behind := List.forall₂_drop low (mapM_ok_iff.mp mapped)
  cases high with
  | none => exact mapM_ok_iff.mpr behind
  | some high => exact mapM_ok_iff.mpr (List.forall₂_take (high - low) behind)

namespace Session

variable {κ α : Type} [Connection κ] {s : Session κ} {q : Query} {rows : List (List Value)}

/-- The statement that is sent for the query, or the failure where none is sent. -/
def statementOf (s : Session κ) (q : Query) : Except Failure String := do
  let v ← Vendor.ofName (Connection.vendorName s.connection)
  (q.selectTemplate v.flavor).inline v.flavor

/-- Sent the statement of the whole query with a clause behind it, the connection answers what the
window in the clause leaves of the rows. -/
def ServesWindows (s : Session κ) (q : Query) (rows : List (List Value)) : Prop :=
  ∀ statement clause w, s.statementOf (q.windowed 0 none) = .ok statement →
    Window.read? clause = some w →
    rowsOf (Connection.run (statement ++ clause) s.connection).1 =
      (w.select rows).map fun values => .ok ⟨q.labels, values⟩

/-- A query without a statement is not loaded. -/
theorem exec_loadQuery_unsent (read : RowReader α) {failure : Failure}
    (unsent : s.statementOf q = .error failure) (j : Journal) :
    (QuerySet.loadQuery read q).exec s j = ((.error failure, s), j) := by
  have asked : (QuerySet.statementFor (κ := κ) fun f => .ok (q.selectTemplate f)).exec s j =
      ((s.statementOf q, s), j) := by
    rw [statementOf, QuerySet.statementFor, vendor]
    simp only [Action.exec_bind, Action.exec_get, Action.exec_ofExcept]
    cases Vendor.ofName (Connection.vendorName s.connection) <;> rfl
  rw [QuerySet.loadQuery, Action.exec_bind, asked, unsent]

/-- A query between row numbers has a statement exactly where the whole query has one. -/
theorem statementOf_windowed_error {failure : Failure} (low : Nat) (high : Option Nat) :
    s.statementOf (q.windowed low high) = .error failure ↔
      s.statementOf (q.windowed 0 none) = .error failure := by
  rw [statementOf, statementOf]
  cases Vendor.ofName (Connection.vendorName s.connection) with
  | error other => exact Iff.rfl
  | ok v =>
    show ((q.windowed low high).selectTemplate v.flavor).inline v.flavor = .error failure ↔
      ((q.windowed 0 none).selectTemplate v.flavor).inline v.flavor = .error failure
    rw [Query.inline_windowed]
    cases ((q.windowed 0 none).selectTemplate v.flavor).inline v.flavor with
    | error other => exact Iff.rfl
    | ok statement => exact iff_of_false nofun nofun

theorem statementOf_windowed_ok {statement : String} {low : Nat} {high : Option Nat}
    (sent : s.statementOf (q.windowed low high) = .ok statement) :
    ∃ whole, s.statementOf (q.windowed 0 none) = .ok whole := by
  cases written : s.statementOf (q.windowed 0 none) with
  | error failure =>
    rw [(statementOf_windowed_error low high).mpr written] at sent
    cases sent
  | ok whole => exact ⟨whole, rfl⟩

/-- Wherever the window of the query lies, it is what is answered of the rows. -/
theorem serves_windowed {statement : String} (served : s.ServesWindows q rows)
    (bounded : rows.length ≤ Bound.greatestRow)
    (written : s.statementOf (q.windowed 0 none) = .ok statement) (low : Nat) (high : Option Nat) :
    s.Serves (q.windowed low high) (rowsBetween low high rows) := by
  obtain ⟨v, named, inlined⟩ := Outcome.bind_ok.mp written
  obtain ⟨w, clause, shown⟩ := v.flavor.window_rows low high
  refine ⟨v, statement ++ Piece.texts (v.flavor.window (.row low) (high.map .row)), named, ?_, ?_⟩
  · rw [Query.inline_windowed, inlined]
    rfl
  · rw [served statement _ w written clause, shown rows bounded]
    rfl

/-! ### Narrowed reads -/

/-- What comes of an action in the session. -/
def outcome (s : Session κ) (j : Journal) (a : Action (Session κ) α) : Except Failure α :=
  (a.exec s j).1.1

omit [Connection κ] in
theorem outcome_bind {β : Type} (a : Action (Session κ) α) (f : α → Except Failure β) (j : Journal) :
    s.outcome j (do let x ← a; Action.ofExcept (f x)) = s.outcome j a >>= f := by
  rw [outcome, outcome, Action.exec_bind]
  rcases a.exec s j with ⟨⟨failure | x, s'⟩, j'⟩
  · rfl
  · simp only [Action.exec_ofExcept]
    rfl

/-- A whole read loads the rows of the query, where there is a statement. -/
theorem outcome_all (served : s.ServesWindows q rows) (bounded : rows.length ≤ Bound.greatestRow)
    (low : Nat) (high : Option Nat) (read : RowReader α) (j : Journal) :
    s.outcome j (QuerySet.all read (.building (q.windowed low high))) =
      s.statementOf (q.windowed 0 none) >>= fun _ =>
        (rowsBetween low high rows).mapM fun values => read ⟨q.labels, values⟩ := by
  rw [outcome]
  cases written : s.statementOf (q.windowed 0 none) with
  | error failure =>
    have unsent := (statementOf_windowed_error low high).mpr written
    have asked : QuerySet.all (κ := κ) read (.building (q.windowed low high)) =
        QuerySet.loadQuery read (q.windowed low high) := rfl
    rw [asked, exec_loadQuery_unsent read unsent]
    rfl
  | ok statement =>
    obtain ⟨_, loaded⟩ := exec_all read (serves_windowed served bounded written low high) j
    rw [loaded]
    rfl

/-- A change of the query does what a further slice of it does, whatever the cell of the copy. -/
def Slices (change : Action Query Unit) (q : Query) (low : Nat) (high : Option Nat) : Prop :=
  ∀ memo j, change.exec { q with memo := memo } j =
    (Query.slice (.row low) (high.map .row)).exec { q with memo := memo } j

theorem slices_slice (q : Query) (low : Nat) (high : Option Nat) :
    Slices (Query.slice (.row low) (high.map .row)) q low high :=
  fun _ _ => rfl

/-- A read that slices the query further loads what the slice says of the rows of the query. -/
theorem outcome_loadNarrowed (served : s.ServesWindows q rows)
    (bounded : rows.length ≤ Bound.greatestRow) (low : Nat) (high : Option Nat) (operation : String)
    {change : Action Query Unit} {innerLow : Nat} {innerHigh : Option Nat} (read : RowReader α)
    (slices : Slices change (q.windowed low high) innerLow innerHigh) (j : Journal) :
    s.outcome j (QuerySet.loadNarrowed operation change read (.building (q.windowed low high))) =
      s.statementOf (q.windowed 0 none) >>= fun _ =>
        (rowsBetween innerLow innerHigh (rowsBetween low high rows)).mapM fun values =>
          read ⟨q.labels, values⟩ := by
  obtain ⟨low', high', sliced, kept⟩ :=
    Query.exec_slice_windowed { q with memo := s.store.nextMemo } low high innerLow innerHigh j
  have changed := (slices s.store.nextMemo j).trans sliced
  rw [outcome]
  cases written : s.statementOf (q.windowed 0 none) with
  | error failure =>
    obtain ⟨s', narrowed, same⟩ := exec_narrowed operation changed
    have unsent : s'.statementOf (q.windowed low' high') = .error failure := by
      have unsent := (statementOf_windowed_error low' high').mpr written
      rw [statementOf] at unsent ⊢
      rwa [same]
    have unloaded := exec_loadQuery_unsent read unsent j
    rw [QuerySet.loadNarrowed, Action.exec_bind, narrowed]
    show ((QuerySet.loadQuery read (q.windowed low' high')).exec s' j).1.1 = _
    rw [unloaded]
    rfl
  | ok statement =>
    have served' : s.Serves (Query.windowed { q with memo := s.store.nextMemo } low' high')
        (rowsBetween low' high' rows) := serves_windowed served bounded written low' high'
    rw [kept rows bounded] at served'
    obtain ⟨_, loaded⟩ := exec_loadNarrowed operation read changed served'
    rw [loaded]
    rfl

/-- A read that slices the query further, loads what is left, and makes its answer of it. -/
def Narrows {β : Type} (a : Action (Session κ) β) (q : Query) (read : RowReader α) (low : Nat)
    (high : Option Nat) (answer : List α → Except Failure β) : Prop :=
  ∃ operation change, Slices change q low high ∧
    a = QuerySet.loadNarrowed operation change read (.building q) >>= fun rows =>
      Action.ofExcept (answer rows)

section
variable {β : Type} {a : Action (Session κ) β} {read : RowReader α} {low innerLow : Nat}
  {high innerHigh : Option Nat} {answer : List α → Except Failure β} {j : Journal}

/-- The answer is made of what the slice says of the rows of the query, where there is a statement. -/
theorem outcome_narrows (served : s.ServesWindows q rows) (bounded : rows.length ≤ Bound.greatestRow)
    (narrows : Narrows a (q.windowed low high) read innerLow innerHigh answer) :
    s.outcome j a = s.statementOf (q.windowed 0 none) >>= fun _ =>
      ((rowsBetween innerLow innerHigh (rowsBetween low high rows)).mapM fun values =>
        read ⟨q.labels, values⟩) >>= answer := by
  obtain ⟨operation, change, slices, rfl⟩ := narrows
  rw [outcome_bind, outcome_loadNarrowed served bounded low high operation read slices, bind_assoc]

/-- Where all rows are read, the answer is made of those of them that the slice leaves. -/
theorem outcome_of_all {xs : List α} (served : s.ServesWindows q rows)
    (bounded : rows.length ≤ Bound.greatestRow)
    (everything : s.outcome j (QuerySet.all read (.building (q.windowed low high))) = .ok xs)
    (narrows : Narrows a (q.windowed low high) read innerLow innerHigh answer) :
    s.outcome j a = answer (rowsBetween innerLow innerHigh xs) := by
  rw [outcome_all served bounded] at everything
  obtain ⟨statement, written, readable⟩ := Outcome.bind_ok.mp everything
  rw [outcome_narrows served bounded narrows, written,
    Outcome.mapM_rowsBetween innerLow innerHigh readable]
  rfl

/-- Where there is no statement, there is no answer. -/
theorem outcome_unsent {failure : Failure} (served : s.ServesWindows q rows)
    (bounded : rows.length ≤ Bound.greatestRow)
    (unsent : s.statementOf (q.windowed 0 none) = .error failure)
    (narrows : Narrows a (q.windowed low high) read innerLow innerHigh answer) :
    s.outcome j a = .error failure := by
  rw [outcome_narrows served bounded narrows, unsent]
  rfl

end

end Session

namespace QuerySet

open Session (Narrows slices_slice)

variable {κ α : Type} [Connection κ] {s : Session κ} {q : Query} {rows : List (List Value)}
  {low : Nat} {high : Option Nat}

/-! ### The reads -/

/-- What a lookup of the only row among some rows comes to. -/
def onlyAmong (table : String) : List α → Except Failure α
  | [x] => .ok x
  | [] => .error (.noMatch table)
  | xs => .error (.manyMatches table (min xs.length (fetchedToTell - 1)) (fetchedToTell ≤ xs.length))

theorem onlyAmong_many {xs : List α} (many : 2 ≤ xs.length) (table : String) :
    onlyAmong table xs = .error (.manyMatches table (min xs.length 20) (21 ≤ xs.length)) := by
  match xs with
  | x :: y :: rest => rfl

/-- As many rows as are fetched tell as much as all of them. -/
theorem onlyAmong_take (table : String) (xs : List α) :
    onlyAmong table (xs.take fetchedToTell) = onlyAmong table xs := by
  by_cases many : 2 ≤ xs.length
  · have fetched : (xs.take fetchedToTell).length = min 21 xs.length := List.length_take
    have shown : min (min 21 xs.length) 20 = min xs.length 20 := by omega
    have more : 21 ≤ min 21 xs.length ↔ 21 ≤ xs.length := by omega
    rw [onlyAmong_many many, onlyAmong_many (by omega), fetched, shown]
    simp only [more]
  · rw [List.take_of_length_le (Nat.le_trans (Nat.le_of_not_le many) (by decide))]

theorem narrows_hasRows (q : Query) : Narrows (κ := κ) (hasRows (.building q)) q LabeledRow.whole 0
    (some 1) fun rows => .ok (!rows.isEmpty) :=
  ⟨_, _, slices_slice q 0 (some 1), rfl⟩

theorem narrows_atIndex (read : RowReader α) (i : Nat) (q : Query) :
    Narrows (κ := κ) (atIndex read i (.building q)) q read i (some (Query.addRows i 1)) fun rows =>
      .ok rows.head? :=
  ⟨_, _, slices_slice q i (some (Query.addRows i 1)), rfl⟩

theorem narrows_get (read : RowReader α) (q : Query) :
    Narrows (κ := κ) (get read (.building q)) q read 0 (some fetchedToTell)
      (onlyAmong q.table.fullName) := by
  refine ⟨"get", _, slices_slice q 0 (some fetchedToTell), ?_⟩
  rw [QuerySet.get]
  congr 1
  funext rows
  match rows with
  | [] => rfl
  | [x] => rfl
  | x :: y :: rest => rfl

/-- Asked for its first row, a query that is ordered or sliced is not ordered otherwise. -/
theorem narrows_first (read : RowReader α) (settled : q.orderBy ≠ [] ∨ q.isSliced = true) :
    Narrows (κ := κ) (first read (.building q)) q read 0 (some 1) fun rows => .ok rows.head? := by
  refine ⟨_, _, fun memo j => ?_, rfl⟩
  have kept : ¬ (q.orderBy.isEmpty && !Query.isSliced { q with memo := memo }) = true := by
    have same : Query.isSliced { q with memo := memo } = q.isSliced := rfl
    rw [same]
    rcases settled with ordered | sliced
    · simp [ordered]
    · simp [sliced]
  rw [Action.exec_bind, Action.exec_get]
  dsimp only
  rw [if_neg kept]
  rfl

/-- What the reads of some rows come to, when the read of all of them answers `xs`. -/
structure ReadsAgree (s : Session κ) (j : Journal) (read : RowReader α) (q : Query) (xs : List α) :
    Prop where
  /-- There are rows when some are read. -/
  rows : s.outcome j (hasRows (.building q)) = .ok (!xs.isEmpty)
  first : s.outcome j (first read (.building q)) = .ok xs.head?
  /-- At an index behind all rows there is none. -/
  index : ∀ i, s.outcome j (atIndex read i (.building q)) = .ok xs[i]?
  /-- The only row is found when it is the only one. -/
  only : ∀ x, s.outcome j (get read (.building q)) = .ok x ↔ xs = [x]
  none : s.outcome j (get read (.building q)) = .error (.noMatch q.table.fullName) ↔ xs = []
  /-- Rows are counted up to twenty. -/
  many : 2 ≤ xs.length → ∃ failure, s.outcome j (get read (.building q)) = .error failure ∧
    failure.message? = some ("get() returned more than one " ++ q.table.fullName ++
      ", it returned " ++ if xs.length ≤ 20 then toString xs.length else "more than 20")

/-- All reads fail with the failure. -/
structure ReadsFail (s : Session κ) (j : Journal) (read : RowReader α) (q : Query)
    (failure : Failure) : Prop where
  all : s.outcome j (all read (.building q)) = .error failure
  rows : s.outcome j (hasRows (.building q)) = .error failure
  first : s.outcome j (first read (.building q)) = .error failure
  index : ∀ i, s.outcome j (atIndex read i (.building q)) = .error failure
  get : s.outcome j (get read (.building q)) = .error failure

theorem length_rowsBetween_le (low : Nat) (high : Option Nat) (xs : List α) :
    (rowsBetween low high xs).length ≤ xs.length := by
  cases high with
  | none => exact (List.drop_sublist low xs).length_le
  | some high => exact ((List.take_sublist _ _).trans (List.drop_sublist low xs)).length_le

/-- The window between a row and the next one shows the row at its front. The last row number has no
next one, and no row either. -/
theorem head?_rowsBetween {xs : List α} (bounded : xs.length ≤ Bound.greatestRow) (i : Nat) :
    (rowsBetween i (some (Query.addRows i 1)) xs).head? = xs[i]? := by
  rw [rowsBetween, List.head?_take, List.head?_drop]
  split
  · next empty =>
    have last : Bound.greatestRow ≤ i := by
      rw [Query.addRows] at empty
      omega
    exact (List.getElem?_eq_none (Nat.le_trans bounded last)).symm
  · rfl

/-- Twenty rows are told exactly, and more are told from them. -/
theorem message?_manyMatches (table : String) (count : Nat) :
    (Failure.manyMatches table (min count 20) (21 ≤ count)).message? =
      some ("get() returned more than one " ++ table ++ ", it returned " ++
        if count ≤ 20 then toString count else "more than 20") := by
  by_cases few : count ≤ 20
  · have exact_ : ¬ 21 ≤ count := by omega
    rw [Failure.message?, decide_eq_false exact_, if_neg Bool.false_ne_true, if_pos few,
      Nat.min_eq_left few, String.append_empty]
  · have more : 21 ≤ count := by omega
    have words : "more than " ++ toString 20 = "more than 20" := rfl
    rw [Failure.message?, decide_eq_true more, if_pos rfl, if_neg few,
      Nat.min_eq_right (Nat.le_of_not_le few), String.append_assoc, words]

/-- Whether there are rows is told from the rows as they are, whatever a reader makes of them. -/
theorem outcome_hasRows (served : s.ServesWindows q rows) (bounded : rows.length ≤ Bound.greatestRow)
    (low : Nat) (high : Option Nat) (j : Journal) :
    s.outcome j (hasRows (.building (q.windowed low high))) =
      s.statementOf (q.windowed 0 none) >>= fun _ => .ok (!(rowsBetween low high rows).isEmpty) := by
  rw [Session.outcome_narrows served bounded (narrows_hasRows _)]
  have looked : (rowsBetween 0 (some 1) (rowsBetween low high rows)).mapM (fun values =>
      LabeledRow.whole ⟨q.labels, values⟩) =
        .ok ((rowsBetween 0 (some 1) (rowsBetween low high rows)).map fun values =>
          ⟨q.labels, values⟩) :=
    Outcome.mapM_each fun _ _ => rfl
  rw [looked]
  cases rowsBetween low high rows <;> rfl

theorem readsFail {failure : Failure} (read : RowReader α) (j : Journal)
    (settled : (q.windowed low high).orderBy ≠ [] ∨ (q.windowed low high).isSliced = true)
    (bounded : rows.length ≤ Bound.greatestRow) (served : s.ServesWindows q rows)
    (unsent : s.statementOf (q.windowed low high) = .error failure) :
    ReadsFail s j read (q.windowed low high) failure := by
  rw [Session.statementOf_windowed_error] at unsent
  constructor
  case all =>
    rw [Session.outcome_all served bounded, unsent]
    rfl
  case rows => exact Session.outcome_unsent served bounded unsent (narrows_hasRows _)
  case first => exact Session.outcome_unsent served bounded unsent (narrows_first read settled)
  case index => exact fun i => Session.outcome_unsent served bounded unsent (narrows_atIndex read i _)
  case get => exact Session.outcome_unsent served bounded unsent (narrows_get read _)

theorem readsAgree (read : RowReader α) (j : Journal) {xs : List α}
    (settled : (q.windowed low high).orderBy ≠ [] ∨ (q.windowed low high).isSliced = true)
    (bounded : rows.length ≤ Bound.greatestRow) (served : s.ServesWindows q rows)
    (everything : s.outcome j (all read (.building (q.windowed low high))) = .ok xs) :
    ReadsAgree s j read (q.windowed low high) xs := by
  have answered := everything
  rw [Session.outcome_all served bounded] at answered
  obtain ⟨statement, written, readable⟩ := Outcome.bind_ok.mp answered
  have sized : (rowsBetween low high rows).length = xs.length :=
    (Outcome.mapM_ok_iff.mp readable).length_eq
  have get := Session.outcome_of_all served bounded everything (narrows_get read _)
  have fetched : rowsBetween 0 (some fetchedToTell) xs = xs.take fetchedToTell := rfl
  rw [fetched, onlyAmong_take] at get
  constructor
  case rows =>
    have same : (rowsBetween low high rows).isEmpty = xs.isEmpty := by
      rw [Bool.eq_iff_iff, List.isEmpty_iff_length_eq_zero, List.isEmpty_iff_length_eq_zero, sized]
    rw [outcome_hasRows served bounded, written, same]
    rfl
  case first =>
    rw [Session.outcome_of_all served bounded everything (narrows_first read settled)]
    cases xs <;> rfl
  case index =>
    intro i
    rw [Session.outcome_of_all served bounded everything (narrows_atIndex read i _)]
    have counted : xs.length ≤ Bound.greatestRow := by
      have fewer := length_rowsBetween_le low high rows
      omega
    rw [head?_rowsBetween counted]
  case only =>
    intro x
    rw [get]
    match xs with
    | [] => exact iff_of_false nofun nofun
    | [y] => simp [onlyAmong]
    | y :: z :: rest => exact iff_of_false nofun nofun
  case none =>
    rw [get]
    match xs with
    | [] => exact iff_of_true rfl rfl
    | [y] => exact iff_of_false nofun nofun
    | y :: z :: rest => exact iff_of_false nofun nofun
  case many =>
    intro many
    exact ⟨_, get.trans (onlyAmong_many many _), message?_manyMatches _ xs.length⟩

/-- A query that is not sliced, or sliced between row numbers, is its own window. -/
theorem windowed_self (from_ : q.low = .row low) (upTo : q.high = high.map .row) :
    q.windowed low high = q := by
  rw [Query.windowed, ← from_, ← upTo]

end QuerySet

/-! ### Authors behind the first one -/

/-- A server that knows one statement. It answers its rows, cut to the window in the clause behind the
statement. -/
structure Shelf where
  statement : String
  labels : List String
  rows : List (List Value)

namespace Shelf

/-- The rows that are asked for, if the statement is the known one. -/
def asked (c : Shelf) (statement : String) : List (List Value) :=
  match Text.splitBytes? c.statement.utf8ByteSize statement.toList with
  | some (front, clause) =>
    if front = c.statement.toList then
      ((Window.read? (String.ofList clause)).map fun w => w.select c.rows).getD []
    else []
  | none => []

instance : Connection Shelf where
  vendorName _ := "postgres"
  handle _ := ⟨1⟩
  run statement c := ((c.asked statement).map fun values => .ok (.row ⟨c.labels, values⟩), c)

theorem asked_window {c : Shelf} {clause : String} {w : Window}
    (read : Window.read? clause = some w) :
    c.asked (c.statement ++ clause) = w.select c.rows := by
  have cut := Text.splitBytes?_front 0 c.statement clause
  rw [Nat.zero_add, Nat.sub_zero] at cut
  rw [asked, cut]
  dsimp only
  rw [if_pos rfl, String.ofList_toList, read]
  rfl

theorem rowsOf_run (c : Shelf) (statement : String) :
    Session.rowsOf (Connection.run statement c).1 =
      (c.asked statement).map fun values => .ok ⟨c.labels, values⟩ := by
  show Session.rowsOf ((c.asked statement).map fun values => .ok (.row ⟨c.labels, values⟩)) = _
  rw [Session.rowsOf, List.filterMap_map]
  exact congrFun List.filterMap_eq_map _

end Shelf

namespace Catalogue

open Library

def third : Author := Author.known 3 "Kazuo Ishiguro"

/-- All authors but the one with the least key. -/
def laterByKey : Query :=
  { byKey with low := .row 1 }

/-- A session with a server that has three authors. -/
def shelved : Session Shelf where
  connection :=
    { statement := "SELECT \"id\", \"name\"\nFROM \"reprise_author\"\nORDER BY \"id\" ASC"
      labels := ["id", "name"]
      rows := [shown first, shown second, shown third] }

theorem statementOf_shelved :
    shelved.statementOf (laterByKey.windowed 0 none) = .ok shelved.connection.statement := by
  have named : Vendor.ofName (Connection.vendorName shelved.connection) = .ok .postgres :=
    named_postgres
  rw [Session.statementOf, named]
  rfl

theorem shelved_servesWindows :
    shelved.ServesWindows laterByKey [shown first, shown second, shown third] := by
  intro statement clause w written read
  cases statementOf_shelved.symm.trans written
  rw [Shelf.rowsOf_run, Shelf.asked_window read]
  rfl

end Catalogue

end PreparedSql
