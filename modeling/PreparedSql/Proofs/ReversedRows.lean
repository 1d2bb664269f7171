import Mathlib.Data.List.Forall2
import PreparedSql.Library.Author
import PreparedSql.Proofs.PoolExecution
import PreparedSql.Proofs.SelectedRows
import PreparedSql.Session.Canned

/-! Queries that are turned around. The orderings of a query turn around all together, so the
rows of a whole query come in the opposite order, and the first row of what is turned around is
the last one of the query. The window of a sliced query stays where it is: it is counted from
the other end of the rows then, and what it leaves are other rows. -/
namespace PreparedSql

theorem Order.reversed_reversed (order : Order) : order.reversed.reversed = order := by
  cases order <;> rfl

namespace Query

variable {Row : Type} {db : Engine Row} {table : List Row} {q : Query}
  {whole : List (List Value)}

/-- What the statement of the query selects. -/
def asked (q : Query) : Selection :=
  q.selection q.projection

/-! ### Turning around -/

theorem orderBy_reverse (ordered : q.orderBy ≠ []) :
    q.reverse.orderBy = q.orderBy.map fun (order, e) => (order.reversed, e) := by
  rw [reverse, if_neg (by simpa using ordered)]

theorem reverse_reverse (ordered : q.orderBy ≠ []) : q.reverse.reverse = q := by
  have turned : q.reverse.orderBy ≠ [] := by
    rw [orderBy_reverse ordered]
    simpa using ordered
  have back : q.reverse.reverse.orderBy = q.orderBy := by
    rw [orderBy_reverse turned, orderBy_reverse ordered]
    simp [Function.comp_def, Order.reversed_reversed]
  show ({ q with orderBy := q.reverse.reverse.orderBy } : Query) = q
  rw [back]

/-- A query that is turned around sorts the other way around. -/
theorem along_reverse (ordered : q.orderBy ≠ []) (r t : Row) :
    db.along q.reverse.asked.orderBy r t = (db.along q.asked.orderBy r t).swap := by
  have keys : q.reverse.asked.orderBy =
      q.orderBy.map fun (order, e) => .ordered order.reversed e := by
    show (q.reverse.orderBy.map fun (order, e) => Expr.ordered order e) = _
    rw [orderBy_reverse ordered, List.map_map]
    rfl
  rw [keys]
  exact db.along_reversed q.orderBy r t

theorem tellsApart_reverse (ordered : q.orderBy ≠ []) (apart : q.asked.TellsApart db table) :
    q.reverse.asked.TellsApart db table := by
  intro r member t member' tie
  rw [along_reverse ordered, Ordering.swap_eq_eq] at tie
  exact apart r member t member' tie

theorem arranges_reverse (ordered : q.orderBy ≠ []) (arranged : q.asked.Arranges db table whole) :
    q.reverse.asked.Arranges db table whole.reverse := by
  obtain ⟨rows, perm, sorted, rfl⟩ := arranged
  refine ⟨rows.reverse, (List.reverse_perm rows).trans perm, ?_, List.map_reverse.symm⟩
  rw [List.pairwise_reverse]
  refine sorted.imp fun {r t} upTo => ?_
  rw [along_reverse ordered, ← db.along_swap]
  exact upTo

/-- The names of what the query projects. -/
def labels (q : Query) : List String :=
  (q.fields.getD q.model.columns).map Column.name ++ q.annotations.map (·.1)

/-- The query for the last row of a whole query. -/
def lastRow (q : Query) : Query :=
  { q.reverse with low := .zero, high := some (.row 1) }

end Query

/-! ### Asking a connection -/

namespace Session

variable {κ α : Type} [Connection κ] {s : Session κ} {q : Query} {answer : List (List Value)}

/-- Sent the statement of the query, the connection answers these rows. -/
def Serves (s : Session κ) (q : Query) (answer : List (List Value)) : Prop :=
  ∃ v statement, Vendor.ofName (Connection.vendorName s.connection) = .ok v ∧
    (q.selectTemplate v.flavor).inline v.flavor = .ok statement ∧
    rowsOf (Connection.run statement s.connection).1 =
      answer.map fun values => .ok ⟨q.labels, values⟩

/-- The rows of a query are read one by one. -/
theorem exec_loadQuery (read : RowReader α) (served : s.Serves q answer) (j : Journal) :
    ∃ s', (QuerySet.loadQuery read q).exec s j =
      ((answer.mapM fun values => read ⟨q.labels, values⟩, s'), j) := by
  obtain ⟨v, statement, named, written, rows⟩ := served
  have asked : (QuerySet.statementFor (κ := κ) fun f => .ok (q.selectTemplate f)).exec s j =
      ((.ok statement, s), j) := by
    simp only [QuerySet.statementFor, vendor, Action.exec_bind, Action.exec_get, named,
      Action.exec_ofExcept, written]
  have collected :
      collect ((answer.map fun values => Except.ok ⟨q.labels, values⟩).map (· >>= read)) =
        answer.mapM fun values => read ⟨q.labels, values⟩ := by
    rw [collect, List.map_map, List.mapM_map]
    rfl
  refine ⟨s.after statement, ?_⟩
  rw [QuerySet.loadQuery, Action.exec_bind, asked]
  dsimp only
  rw [load, Action.exec_bind, exec_fetch]
  dsimp only
  rw [rows, collected, Action.exec_ofExcept]

/-- All rows of a query set are those of its query. -/
theorem exec_all (read : RowReader α) (served : s.Serves q answer) (j : Journal) :
    ∃ s', (QuerySet.all read (.building q)).exec s j =
      ((answer.mapM fun values => read ⟨q.labels, values⟩, s'), j) := by
  obtain ⟨s', loaded⟩ := exec_loadQuery read served j
  refine ⟨s', ?_⟩
  rw [QuerySet.all, Action.exec_bind, QuerySet.buildingIn, QuerySet.stillBuilding,
    Action.exec_ofExcept]
  exact loaded

omit [Connection κ] in
/-- A copy of the query is changed, and the connection stays as it is. -/
theorem exec_narrowed (operation : String) {change : Action Query Unit} {q' : Query} {j : Journal}
    (changed : change.exec { q with memo := s.store.nextMemo } j = ((.ok (), q'), j)) :
    ∃ s', (withStore (QuerySet.narrowed operation change (.building q))).exec s j =
      ((.ok q', s'), j) ∧ s'.connection = s.connection := by
  let store : Store := { s.store with nextMemo := s.store.nextMemo + 1 }
  have copied : (QuerySet.narrowed operation change (.building q)).exec s.store j =
      (Action.separately { q with memo := s.store.nextMemo } change).exec store j := rfl
  refine ⟨{ s with store := store }, ?_, rfl⟩
  rw [withStore, Action.exec_zoom, copied, Action.exec_separately, changed]
  rfl

/-- The rows of a changed copy of the query are read one by one. -/
theorem exec_loadNarrowed (operation : String) {change : Action Query Unit} {q' : Query}
    {j : Journal} (read : RowReader α)
    (changed : change.exec { q with memo := s.store.nextMemo } j = ((.ok (), q'), j))
    (served : s.Serves q' answer) :
    ∃ s', (QuerySet.loadNarrowed operation change read (.building q)).exec s j =
      ((answer.mapM fun values => read ⟨q'.labels, values⟩, s'), j) := by
  obtain ⟨s₁, narrowed, same⟩ := exec_narrowed operation changed
  have served' : s₁.Serves q' answer := by
    rw [Serves, same]
    exact served
  obtain ⟨s', loaded⟩ := exec_loadQuery read served' j
  refine ⟨s', ?_⟩
  rw [QuerySet.loadNarrowed, Action.exec_bind, narrowed]
  exact loaded

/-- The last row of a whole query set is the one of the query that is turned around and cut
after its first row. -/
theorem exec_last (whole : q.isSliced = false) (read : RowReader α)
    (served : s.Serves q.lastRow answer) (j : Journal) :
    ∃ s', (QuerySet.last read (.building q)).exec s j =
      (((answer.mapM fun values => read ⟨q.labels, values⟩).map List.head?, s'), j) := by
  let turned : Query := { q.lastRow with memo := s.store.nextMemo }
  have cut : (Query.slice .zero (some (.row 1))).exec
      { q.reverse with memo := s.store.nextMemo } j = ((.ok (), turned), j) := by
    have whole' : Query.isSliced { q.reverse with memo := s.store.nextMemo } = false := whole
    rw [Query.slice, Action.exec_bind, Action.exec_get]
    dsimp only
    rw [if_neg (by simp [whole'])]
    rfl
  have changed : Action.exec (do
      modify Query.reverse
      Query.slice .zero (some (.row 1))) { q with memo := s.store.nextMemo } j =
      ((.ok (), turned), j) := by
    rw [Action.exec_bind, Action.exec_modify]
    exact cut
  obtain ⟨s', loaded⟩ := exec_loadNarrowed "last" read changed served
  refine ⟨s', ?_⟩
  rw [QuerySet.last, bind_pure_comp, Action.exec_map, loaded]
  rfl

end Session

namespace Outcome

variable {ε α β : Type} {f : α → Except ε β}

/-- The last of what is read is read from the last row. -/
theorem mapM_last {xs : List α} {ys : List β} (mapped : xs.mapM f = .ok ys) :
    ((xs.reverse.take 1).mapM f).map List.head? = .ok ys.getLast? := by
  have last := mapM_ok_iff.mpr (List.forall₂_take 1 (List.rel_reverse (mapM_ok_iff.mp mapped)))
  rw [last, List.getLast?_eq_head?_reverse, Except.map, List.head?_take, if_neg Nat.one_ne_zero]

end Outcome

namespace Query

variable {Row : Type} {db : Engine Row} {table : List Row} {q : Query}

/-- A query with orderings that tell its rows apart, turned around: its window is cut out of
the same rows in the opposite order. So a whole query answers its rows in the opposite order,
and its last row is the last of all. Turned around twice, every query is what it was. -/
theorem reverse_turns (ordered : q.orderBy ≠ []) (apart : q.asked.TellsApart db table) :
    (∀ low high, q.low = .row low → q.high = Option.map .row high → ∃ whole, ∀ answer,
      (q.asked.Answers db table answer ↔ answer = rowsBetween low high whole) ∧
      (q.reverse.asked.Answers db table answer ↔ answer = rowsBetween low high whole.reverse)) ∧
    (q.isSliced = false → ∀ answer, q.asked.Answers db table answer → ∀ answer',
      q.reverse.asked.Answers db table answer' ↔ answer' = answer.reverse) ∧
    q.reverse.reverse = q ∧
    (q.isSliced = false → ∀ {κ α : Type} [Connection κ] (read : RowReader α) (s s' : Session κ)
      (answer answer' : List (List Value)) (xs : List α) (j : Journal),
      q.asked.Answers db table answer → s.Serves q answer →
      q.lastRow.asked.Answers db table answer' → s'.Serves q.lastRow answer' →
      (answer.mapM fun values => read ⟨q.labels, values⟩) = .ok xs →
      (∃ t, (QuerySet.all read (.building q)).exec s j = ((.ok xs, t), j)) ∧
      ∃ t, (QuerySet.last read (.building q)).exec s' j = ((.ok xs.getLast?, t), j)) := by
  obtain ⟨whole, arranged⟩ := Selection.exists_arranges db q.asked table
  have apart' := tellsApart_reverse ordered apart
  have arranged' := arranges_reverse ordered arranged
  refine ⟨fun low high from_ upTo => ⟨whole, fun answer => ⟨?_, ?_⟩⟩,
    fun unsliced answer answers answer' => ?_, reverse_reverse ordered,
    fun unsliced κ α _ read s s' answer answer' xs j answers served answers' served' readable => ?_⟩
  · exact Selection.answers_iff low high apart arranged from_ upTo
  · exact Selection.answers_iff low high apart' arranged' from_ upTo
  · obtain ⟨fromZero, noHigh⟩ := bounds_of_whole unsliced
    have all : answer = whole :=
      (Selection.answers_iff 0 none apart arranged fromZero noHigh).mp answers
    rw [all]
    exact Selection.answers_iff 0 none apart' arranged' fromZero noHigh
  · obtain ⟨fromZero, noHigh⟩ := bounds_of_whole unsliced
    have all : answer = whole :=
      (Selection.answers_iff 0 none apart arranged fromZero noHigh).mp answers
    have one : answer' = answer.reverse.take 1 := by
      rw [all]
      exact (Selection.answers_iff (s := q.lastRow.asked) 0 (some 1) apart' arranged' rfl
        rfl).mp answers'
    obtain ⟨t, everything⟩ := Session.exec_all read served j
    obtain ⟨t', last⟩ := Session.exec_last unsliced read served' j
    rw [readable] at everything
    rw [one, Outcome.mapM_last readable] at last
    exact ⟨⟨t, everything⟩, t', last⟩

end Query

/-! ### Authors by key -/

namespace Catalogue

open Library

/-- The number that a value holds. -/
def number : Value → Int
  | .int _ (some n) => n.value
  | _ => 0

/-- A server that looks at the columns of authors and sorts numbers. -/
def engine : Engine Author where
  admits _ _ := true
  worth
    | .column c, a => if c.name = "id" then a.key else .varchar (some a.name)
    | _, _ => .null
  compare := compareOn number
  lawful := inferInstance

def first : Author := Author.known 1 "Svetlana Alexievich"

def second : Author := Author.known 2 "Olga Tokarczuk"

def authors : List Author := [first, second]

/-- What the query shows of an author. -/
def shown (a : Author) : List Value :=
  [a.key, .varchar (some a.name)]

/-- The keys and names of the authors, the least key first. -/
def byKey : Query :=
  { Query.ofModel Author.model with
    fields := some [Author.idColumn, Author.nameColumn]
    orderBy := [(.ascending, .column Author.idColumn)] }

theorem byKey_tellsApart : byKey.asked.TellsApart engine authors := by
  intro r member t member' tie
  have known (a : Author) (member : a ∈ byKey.asked.kept engine authors) :
      a = first ∨ a = second := by
    simpa [authors] using (show a ∈ authors from member)
  rcases known r member with rfl | rfl <;> rcases known t member' with rfl | rfl
  · rfl
  · cases tie
  · cases tie
  · rfl

theorem byKey_arranges : byKey.asked.Arranges engine authors [shown first, shown second] :=
  ⟨authors, List.Perm.refl _, by simp [authors]; rfl, rfl⟩

/-- A session in which every query answers these authors. -/
def answering (as : List Author) : Session Canned where
  connection := { handle := ⟨1⟩, labels := ["id", "name"], rows := as.map shown }

/-- Reads the key of a row. -/
def read : RowReader Int := fun r =>
  .ok ((r.values.head?.map number).getD 0)

theorem named_postgres : Vendor.ofName "postgres" = .ok .postgres := by
  have plain : "postgres".toLower = "postgres" :=
    String.toList_inj.mp (String.toList_map.trans (by decide))
  exact if_pos (.inl plain)

theorem answering_serves : (answering authors).Serves byKey [shown first, shown second] :=
  ⟨.postgres, "SELECT \"id\", \"name\"\nFROM \"reprise_author\"\nORDER BY \"id\" ASC",
    named_postgres, rfl, rfl⟩

theorem answering_serves_last : (answering [second]).Serves byKey.lastRow [shown second] :=
  ⟨.postgres, "SELECT \"id\", \"name\"\nFROM \"reprise_author\"\nORDER BY \"id\" DESC\nLIMIT 1",
    named_postgres, rfl, rfl⟩

theorem byKey_reverse_turns :
    byKey.asked.Answers engine authors [shown first, shown second] ∧
    (∀ answer, byKey.reverse.asked.Answers engine authors answer ↔
      answer = [shown second, shown first]) ∧
    (∃ t, (QuerySet.all read (.building byKey)).exec (answering authors) [] =
      ((.ok [1, 2], t), [])) ∧
    ∃ t, (QuerySet.last read (.building byKey)).exec (answering [second]) [] =
      ((.ok (some 2), t), []) := by
  obtain ⟨_, turned, _, last⟩ := Query.reverse_turns (by simp [byKey]) byKey_tellsApart
  have answers : byKey.asked.Answers engine authors [shown first, shown second] :=
    ⟨_, 0, none, rfl, rfl, byKey_arranges, rfl⟩
  have answersLast : byKey.lastRow.asked.Answers engine authors [shown second] :=
    ⟨_, 0, some 1, rfl, rfl, Query.arranges_reverse (by simp [byKey]) byKey_arranges, rfl⟩
  refine ⟨answers, turned rfl _ answers, ?_⟩
  exact last rfl read (answering authors) (answering [second]) _ _ [1, 2] [] answers
    answering_serves answersLast answering_serves_last rfl

/-- The author with the least key. -/
def firstByKey : Query :=
  { byKey with high := some (.row 1) }

/-- A query that is cut after its first row shows another row when it is turned around, and
asked for its last row it answers that one too. -/
theorem firstByKey_reverse_shows_other :
    firstByKey.asked.TellsApart engine authors ∧
    firstByKey.asked.Answers engine authors [shown first] ∧
    firstByKey.reverse.asked.Answers engine authors [shown second] ∧
    ¬ firstByKey.reverse.asked.Answers engine authors [shown first].reverse ∧
    ((do modify Query.reverse; Query.slice .zero (some (.row 1))) : Action Query Unit).exec
      firstByKey [] = ((.ok (), firstByKey.reverse), []) := by
  have apart : firstByKey.asked.TellsApart engine authors := byKey_tellsApart
  have arranged : firstByKey.reverse.asked.Arranges engine authors [shown second, shown first] :=
    Query.arranges_reverse (by simp [byKey]) byKey_arranges
  refine ⟨apart, ⟨_, 0, some 1, rfl, rfl, byKey_arranges, rfl⟩,
    ⟨_, 0, some 1, rfl, rfl, arranged, rfl⟩, fun answers => ?_, rfl⟩
  have other : [shown first] = [shown second] :=
    (Selection.answers_iff 0 (some 1)
      (Query.tellsApart_reverse (q := firstByKey) (by simp [firstByKey, byKey]) apart) arranged
      rfl rfl).mp answers
  have keys := congrArg (List.map fun row => row.map number) other
  revert keys
  decide

end Catalogue

end PreparedSql
