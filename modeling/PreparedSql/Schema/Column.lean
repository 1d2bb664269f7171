import PreparedSql.Schema.FieldType

/-! Tables, their columns, and references to both. -/
namespace PreparedSql

/-- A table by name; schema and alias may be empty. -/
structure TableRef where
  name : String
  schema : String := ""
  alias_ : String := ""
  deriving DecidableEq, Repr, Inhabited

/-- The alias, or else the name behind the schema. -/
def TableRef.fullName (t : TableRef) : String :=
  if t.alias_ ≠ "" then t.alias_
  else if t.schema ≠ "" then t.schema ++ "." ++ t.name
  else t.name

/-- A column by name; table and schema may be empty. -/
structure ColumnRef where
  name : String
  table : String := ""
  schema : String := ""
  deriving DecidableEq, Repr, Inhabited

/-- The table that the column belongs to. -/
def ColumnRef.tableRef (c : ColumnRef) : TableRef :=
  { name := c.table, schema := c.schema }

/-- A column as its table declares it. -/
structure Column where
  ref : ColumnRef
  fieldType : FieldType
  nullable : Bool := false
  primaryKey : Bool := false
  unique : Bool := false
  references : Option ColumnRef := none
  deriving DecidableEq, Repr

abbrev Column.name (c : Column) : String := c.ref.name

/-- A table, its columns, and the one that identifies its rows. -/
structure Model where
  table : TableRef
  columns : List Column
  primaryKey : Column
  deriving DecidableEq, Repr

/-- Values by column name, in the order in which they are written. -/
abbrev NamedRow := List (String × Value)

end PreparedSql
