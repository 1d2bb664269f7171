import PreparedSql.Session.Row
import PreparedSql.Wire.PostgresCell

/-! Streams of PostgreSQL. Messages of the simple protocol carry texts, whose
kinds are not known; rows of the extended protocol carry binary cells. A stream
ends with its first failure. -/
namespace PreparedSql.Postgres

/-- What the server sends. -/
inductive ServerMessage where
  | description (names : List String)
  | textRow (cells : List (Option String))
  | complete (tag : String)
  | emptyQuery
  | failure

/-- A message as a client hands it on; a row knows its columns. -/
inductive Message where
  | description (names : List String)
  | row (names : List String) (cells : List (Option String))
  | complete (rows : Nat)
  deriving DecidableEq

/-- The number at the end of a tag, zero where there is none. -/
def rowsOfTag (tag : String) : Nat :=
  let last := (tag.toList.reverse.takeWhile (· != ' ')).reverse
  let digits := if last.head? = some '+' then last.tail else last
  let n := Text.digitsValue digits
  if !digits.isEmpty && digits.all Char.isDigit && n < Nat.pow 2 64 then n else 0

/-- Hands the messages of the server on. A row needs a description before it. -/
def received : Option (List String) → List ServerMessage → List (Except Failure Message)
  | _, [] => []
  | _, .description names :: rest => .ok (.description names) :: received (some names) rest
  | some names, .textRow cells :: rest => .ok (.row names cells) :: received (some names) rest
  | none, .textRow _ :: _ => [.error .foreign]
  | columns, .complete tag :: rest => .ok (.complete (rowsOfTag tag)) :: received columns rest
  | columns, .emptyQuery :: rest => .ok (.complete 0) :: received columns rest
  | _, .failure :: _ => [.error .foreign]

/-- Labels the rows of each command by its description, or else by the columns
of its first row. No label outlives a command. -/
def simpleAnswers : Option (List String) → List (Except Failure Message) →
    List (Except Failure Answer)
  | _, [] => []
  | _, .error f :: _ => [.error f]
  | _, .ok (.description names) :: rest => simpleAnswers (some names) rest
  | labels, .ok (.row names cells) :: rest =>
    let labels := labels.getD names
    .ok (.row ⟨labels, cells.map .unknown⟩) :: simpleAnswers (some labels) rest
  | _, .ok (.complete rows) :: rest => .ok (.affected ⟨rows, none⟩) :: simpleAnswers none rest

/-- What a stream of the simple protocol yields. -/
def simpleStream (messages : List ServerMessage) : List (Except Failure Answer) :=
  simpleAnswers none (received none messages)

/-- A column of the extended protocol. -/
structure ColumnInfo where
  name : String
  oid : Nat

/-- The values of a row; the first column that cannot be read is reported. -/
def rowValues : Nat → List ColumnInfo → List (Option (List UInt8)) → Except Failure (List Value)
  | i, c :: columns, cell :: cells =>
    match value c.oid cell with
    | .ok v => do return v :: (← rowValues (i + 1) columns cells)
    | .error _ => .error (.unreadableColumn i c.name (typeName c.oid))
  | _, _, _ => .ok []

/-- Rows as the server sends them, or its failure. -/
inductive BinaryMessage where
  | cells (cells : List (Option (List UInt8)))
  | complete
  | failure

/-- What a stream of the extended protocol yields. -/
def binaryStream (columns : List ColumnInfo) : List BinaryMessage →
    List (Except Failure LabeledRow)
  | [] => []
  | .failure :: _ => [.error .foreign]
  | .complete :: rest => binaryStream columns rest
  | .cells cells :: rest =>
    match rowValues 0 columns cells with
    | .ok values => .ok ⟨columns.map ColumnInfo.name, values⟩ :: binaryStream columns rest
    | .error f => [.error f]

end PreparedSql.Postgres
