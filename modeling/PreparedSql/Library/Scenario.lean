import PreparedSql.Library.Book
import PreparedSql.Library.Trial
import PreparedSql.Session.Canned
import PreparedSql.Session.Execution

/-! A scenario over a library: the tables are made and filled, authors and
books are looked up by prepared and by plain queries, and some are changed. It
expects of every step what a database answers. -/
namespace PreparedSql.Library.Scenario

variable {κ : Type} [Connection κ]

/-- A step on a session. -/
abbrev Step (κ : Type) := Trial (Session κ)

open Trial (expect check expectFailure)

/-- A whole number of 32 bits. -/
def whole (n : Int) : Value :=
  .int .int32 (some (Ranged.clamp .int32 n))

def words (s : String) : Value :=
  .varchar (some s)

/-- A column compared with something. -/
def compared (c : Column) (op : BinaryOperator) (e : Expr) : Expr :=
  .binary op (.column c) e

/-- All rows of a model, changed step by step. -/
def objects (m : Model) (changes : List (QuerySet → Action Store QuerySet)) :
    Action (Session κ) QuerySet :=
  Session.withStore do
    changes.foldlM (fun s change => change s) (← QuerySet.ofModel m)

/-- A changed query set, prepared. -/
def preparedObjects (m : Model) (changes : List (QuerySet → Action Store QuerySet)) :
    Action (Session κ) QuerySet := do
  (← objects m changes).prepare

/-- Rows of a prepared query set for arguments. -/
def executed {α : Type} (read : RowReader α) (s : QuerySet) (arguments : List (String × Argument)) :
    Action (Session κ) (List α) :=
  s.execute read (Named.ofList arguments)

/-- Makes the tables anew and fills them. -/
def setup : Step κ Unit := do
  expect "the table of books is dropped" (Book.model.dropTable true)
  expect "the table of authors is dropped" (Author.model.dropTable true)
  expect "the table of authors is created" (Author.model.createTable false)
  expect "the table of books is created" (Book.model.createTable false)
  discard (expect "the authors are stored" (Author.model.insert (Author.fixtures.map Author.row)))
  discard (expect "the books are stored" (Book.model.insert (Book.fixtures.map Book.row)))

/-- Statements known to be prepared on the connection. -/
def preparedHere : Step κ Nat := do
  let s ← get
  return s.pool.preparedOn (Connection.handle s.connection)

/-- The name of the statement of a prepared query set. -/
def nameOf (s : QuerySet) : Step κ String :=
  match s.compiled? with
  | some c => pure c.artifact.name
  | none => throw ⟨"a prepared query set has a statement"⟩

/-- The author with a name: prepared once, executed for several names. -/
def authorByName : Step κ QuerySet := do
  let byName ← expect "the author by name is prepared"
    (preparedObjects Author.model
      [QuerySet.filter (compared Author.nameColumn .equal (.param (.scalar "name" "name")))])
  let name ← nameOf byName
  check "a prepared query set is shown with its statement"
    (byName.display.toOption.any (Text.beginsWith "PreparedQuerySet <PREPARE"))
  let search (who : String) : Step κ (List Author) :=
    expect "the author by name is looked up"
      (executed Author.read byName [("name", .value (words who))])
  check "the first author is found"
    ((← search "Svetlana Alexievich") = [Author.known 1 "Svetlana Alexievich"])
  let s ← get
  check "the statement is in the pool"
    (s.pool.contains (Connection.handle s.connection) name)
  check "the second author is found"
    ((← search "Olga Tokarczuk") = [Author.known 2 "Olga Tokarczuk"])
  check "nobody is found" (← search "Nobody").isEmpty
  check "one statement is prepared" ((← preparedHere) = 1)
  let again ← expect "a prepared query set is prepared again" byName.prepare
  check "the statement is the same" ((← nameOf again) = name)
  return byName

/-- Authors by some of their keys. -/
def authorsByKey : Step κ QuerySet := do
  let byKeys ← expect "the authors by key are prepared"
    (preparedObjects Author.model
      [QuerySet.filter (compared Author.idColumn .isIn (.param (.array "ids" "ids" 3))),
        QuerySet.orderBy .ascending (.column Author.idColumn)])
  let found ← expect "the authors by key are looked up"
    (executed Author.read byKeys
      [("ids", .value (.list (some [whole 1, whole 3]) (.int .int32 none)))])
  check "two authors are found by key" (found.map Author.key == [whole 1, whole 3])
  return byKeys

/-- Authors by a part of their names. -/
def authorsByPart : Step κ Unit := do
  let byPart ← expect "the authors by a part are prepared"
    (preparedObjects Author.model
      [QuerySet.filter (compared Author.nameColumn .icontains (.param (.scalar "part" "part"))),
        QuerySet.orderBy .ascending (.column Author.nameColumn)])
  let found ← expect "the authors by a part are looked up"
    (executed Author.read byPart [("part", .value (words "AN"))])
  check "two authors are found by a part"
    (found.map Author.name = ["Annie Ernaux", "Svetlana Alexievich"])

/-- Books of an author, who stands for the key. -/
def booksByAuthor : Step κ Unit := do
  let byAuthor ← expect "the books by author are prepared"
    (preparedObjects Book.model
      [QuerySet.filter (compared Book.authorColumn .equal (.param (.scalar "author" "author"))),
        QuerySet.orderBy .ascending (.column Book.yearColumn)])
  let found ← expect "the books by author are looked up"
    (executed Book.read byAuthor
      [("author", .reference (Author.known 2 "Olga Tokarczuk").key)])
  check "two books are found by author" (found.map Book.title = ["Flights", "The Books of Jacob"])

/-- As many books as asked for, as far as there are some. -/
def firstBooks : Step κ Unit := do
  let byCount ← expect "the first books are prepared"
    (preparedObjects Book.model
      [QuerySet.orderBy .ascending (.column Book.idColumn),
        QuerySet.limit (.param (.scalar "count" "count"))])
  [1, 3, 10].forM fun count => do
    let found ← expect "the first books are looked up"
      (executed Book.read byCount
        [("count", .value (.int .uint64 (some (Ranged.clamp .uint64 count))))])
    check "as many books are found" ((found.length : Int) = min count 7)

/-- Books between two row numbers. -/
def windowOfBooks : Step κ Unit := do
  let window ← expect "the window is prepared"
    (preparedObjects Book.model
      [QuerySet.orderBy .ascending (.column Book.idColumn),
        QuerySet.slice (.param (.scalar "start" "start")) (some (.param (.scalar "end" "end")))])
  let between (low high : Int) : Step κ (List Book) :=
    expect "the window is looked up"
      (executed Book.read window [("start", .value (whole low)), ("end", .value (whole high))])
  check "two books are in the window" ((← between 1 3).map Book.key == [whole 2, whole 3])
  check "no book is in a window that ends before it starts" (← between 5 2).isEmpty

/-- The shape of a prepared query set is frozen, and its arguments are checked
before anything is sent. -/
def refusals (byName byKeys : QuerySet) : Step κ Unit := do
  expectFailure "a prepared query set is not filtered"
    (Session.withStore (byName.filter (compared Author.idColumn .greater (.literal (whole 1)))))
    (fun
      | .operationOnPreparedStatement _ => true
      | _ => false)
  let before ← preparedHere
  expectFailure "a missing argument is refused" (executed Author.read byName [])
    (fun
      | .incorrectBindParameter _ _ => true
      | _ => false)
  let long := String.ofList (List.replicate 101 'x')
  expectFailure "a name that is too long is refused"
    (executed Author.read byName [("name", .value (words long))])
    (fun
      | .invalidParameterType _ _ _ => true
      | _ => false)
  expectFailure "too many keys are refused"
    (executed Author.read byKeys
      [("ids", .value (.list (some ([1, 2, 3, 4].map whole)) (.int .int32 none)))])
    (fun
      | .arraySizeExceeded _ size length => size == 3 && length == 4
      | _ => false)
  check "no statement was prepared meanwhile" ((← preparedHere) = before)

/-- Prepared queries over the tables. -/
def preparedQueries : Step κ Unit := do
  let byName ← authorByName
  let byKeys ← authorsByKey
  authorsByPart
  booksByAuthor
  firstBooks
  windowOfBooks
  refusals byName byKeys

/-- A query set changed by one step. -/
def changed (change : QuerySet → Action Store QuerySet) (s : QuerySet) : Step κ QuerySet :=
  expect "the query is changed" (Session.withStore (change s))

/-- Authors by a comparison with a literal. -/
def matching (c : Column) (op : BinaryOperator) (v : Value) : QuerySet → Step κ QuerySet :=
  changed (QuerySet.filter (compared c op (.literal v)))

/-- Counting and single rows. -/
def singleAuthors (authors : QuerySet) : Step κ Unit := do
  let number (s : QuerySet) : Step κ Int := do
    return (← expect "the rows are counted" s.count).value
  check "there are four authors" ((← number authors) = 4)
  let afterFirst ← matching Author.idColumn .greater (whole 1) authors
  check "three authors are behind the first" ((← number afterFirst) = 3)
  check "some author is behind the first" (← expect "rows are looked for" afterFirst.hasRows)
  let nobody ← matching Author.nameColumn .equal (words "Nobody") authors
  check "nobody is there" (!(← expect "rows are looked for" nobody.hasRows))
  let third ← matching Author.idColumn .equal (whole 3) authors
  check "the third author is found"
    ((← expect "one row is read" (third.get Author.read)) = Author.known 3 "Kazuo Ishiguro")
  expectFailure "one of several rows is refused" (authors.get Author.read) (fun _ => true)
  let key (found : Option Author) : Option Value := found.map Author.key
  check "the first author comes first"
    (key (← expect "the first row is read" (authors.first Author.read)) == some (whole 1))
  check "the last author comes last"
    (key (← expect "the last row is read" (authors.last Author.read)) == some (whole 4))

/-- Projections and orderings. -/
def lists (authors : QuerySet) : Step κ Unit := do
  let ordered ← changed (QuerySet.orderBy .ascending (.column Author.nameColumn)) authors
  let projected ← changed (QuerySet.valuesList [Author.nameColumn]) ordered
  let names ← expect "the names are read" (projected.all (LabeledRow.scalar .text))
  check "the names are in order"
    (names = ["Annie Ernaux", "Kazuo Ishiguro", "Olga Tokarczuk", "Svetlana Alexievich"])
  let old ← expect "old books are queried"
    (objects Book.model
      [QuerySet.filter (compared Book.yearColumn .less (.literal (whole 2000))),
        QuerySet.orderBy .descending (.column Book.yearColumn)])
  let rows ← expect "old books are looked up" (old.iter Book.read)
  let books ← expect "old books are read" (Action.ofExcept (Session.collect rows))
  check "the old books are in order"
    (books.map Book.title =
      ["Voices from Chernobyl", "The Remains of the Day", "The Unwomanly Face of War"])

/-- Rows are changed and deleted. -/
def changes (authors : QuerySet) : Step κ Unit := do
  let fourth ← matching Author.nameColumn .equal (words "Annie Ernaux") authors
  let address := "annie@example.com"
  discard (expect "the address is stored"
    (fourth.update [(Author.emailColumn, .literal (words address))]))
  let found ← expect "the fourth author is read" (fourth.get Author.read)
  check "the author has the address" (found.email = some address)
  let selected ← expect "books are selected"
    (objects Book.model
      [QuerySet.filter (compared Book.titleColumn .startsWith (.literal (words "The")))])
  let deleted ← expect "books are deleted" selected.delete
  check "four books are deleted" (deleted.rows = 4)
  let left ← expect "all books are queried" (objects Book.model [])
  check "three books are left" ((← expect "the rows are counted" left.count).value = 3)

/-- Plain queries over the tables. -/
def plainQueries : Step κ Unit := do
  let authors ← expect "all authors are queried" (objects Author.model [])
  singleAuthors authors
  lists authors
  changes authors

/-- The connection is closed, and the pool forgets it. -/
def disconnect : Step κ Unit := do
  let h := Connection.handle (← get).connection
  let close : Action (Session κ) Unit :=
    (Pool.close h).zoom Session.pool fun pool s => { s with pool := pool }
  expect "the connection is closed" close

/-- The whole scenario. -/
def all : Step κ Unit := do
  setup
  preparedQueries
  setup
  plainQueries
  check "statements are prepared" (0 < (← preparedHere))
  disconnect
  check "no statement is prepared any more" ((← preparedHere) = 0)
  let s ← get
  check "the pool is empty" ((s.pool.count s.handles).1 = 0)

/-- Whether a connection that answers by a script meets every expectation, and
what was sent on it. -/
def perform (vendorName : String) (script : List Reply) (step : Step Scripted Unit) :
    Bool × List String :=
  let (h, handles) := Handles.make {}
  let start : Session Scripted := {
    handles := handles
    connection := { vendorName := vendorName, handle := h, replies := script } }
  let ((outcome, session), _) := (step.run.run start).run []
  (outcome.isOk, session.connection.sent)

end PreparedSql.Library.Scenario
