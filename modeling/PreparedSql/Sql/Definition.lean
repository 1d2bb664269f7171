import PreparedSql.Sql.Literal

/-! Statements that declare a table or store rows in it. They hold their
values in the text. -/
namespace PreparedSql.Flavor

/-- A statement on a line of its own behind what is written already. -/
def appended (before statement : String) : String :=
  if before = "" then statement else before ++ "\n" ++ statement

/-- A condition that keeps a positive column from negative numbers; MySQL has
column types without sign. -/
def columnCheck (f : Flavor) (c : Column) : String :=
  match f, c.fieldType with
  | mysql, _ => ""
  | _, .positiveSmallInteger | _, .positiveInteger =>
    " CHECK (" ++ f.identifier c.name ++ " >= 0)"
  | _, _ => ""

/-- One column: its type, then what holds for its values. -/
def columnDefinition (f : Flavor) (c : Column) : String :=
  f.identifier c.name ++ " " ++ f.columnType c.fieldType
    ++ (if !c.nullable && !c.primaryKey then " NOT NULL" else "")
    ++ (if c.primaryKey then " PRIMARY KEY" else "")
    ++ (if c.unique && !c.primaryKey then " UNIQUE" else "")
    ++ f.columnCheck c
    ++ match c.references with
      | some target =>
        " REFERENCES " ++ f.table target.tableRef ++ "(" ++ f.column false target ++ ")"
      | none => ""

def createTable (f : Flavor) (t : TableRef) (columns : List Column) (ifNotExists : Bool) : String :=
  "CREATE TABLE " ++ (if ifNotExists then "IF NOT EXISTS " else "") ++ f.table t ++ " (\n"
    ++ String.intercalate ",\n" (columns.map f.columnDefinition) ++ ");"

def dropTable (f : Flavor) (t : TableRef) (ifExists : Bool) : String :=
  "DROP TABLE " ++ (if ifExists then "IF EXISTS " else "") ++ f.table t ++ ";"

/-- A list between parentheses. -/
def tuple (items : List String) : String :=
  "(" ++ String.intercalate ", " items ++ ")"

/-- The value of a column in a row, where the row has one. -/
def cell (f : Flavor) (row : NamedRow) (c : Column) : Except Failure String :=
  match row.find? (·.1 == c.name) with
  | some (_, v) => f.literal v
  | none => .ok "DEFAULT"

/-- The front of a statement that stores rows. -/
def insertHead (f : Flavor) (t : TableRef) (names : List String) : String :=
  "INSERT INTO " ++ f.table t ++ " " ++ tuple (names.map f.identifier) ++ " VALUES\n"

/-- The statement that stores rows, where there are any. A single row lists its own
columns; several rows list all columns of the table, and what a row does not have
takes its default. -/
def insertRows (f : Flavor) (t : TableRef) (columns : List Column) :
    List NamedRow → Except Failure (Option String)
  | [] => .ok none
  | [row] => do
    let items ← row.mapM fun (_, v) => f.literal v
    return some (f.insertHead t (row.map (·.1)) ++ tuple items ++ ";")
  | rows => do
    let tuples ← rows.mapM fun row => columns.mapM (f.cell row)
    return some (f.insertHead t (columns.map Column.name)
      ++ String.intercalate ",\n" (tuples.map tuple) ++ ";")

end PreparedSql.Flavor
