import PreparedSql.Schema.Column
import PreparedSql.Text.Basic

/-! The flavors of SQL: how each one writes names and column types. -/
namespace PreparedSql

inductive Flavor where
  | generic
  | postgres
  | mysql
  deriving DecidableEq, Repr

namespace Flavor

/-- The mark around a quoted name. -/
def nameMark : Flavor → Char
  | generic | postgres => '"'
  | mysql => '\x60'

/-- A name between marks. -/
def identifier (f : Flavor) (name : String) : String :=
  Text.enclosed f.nameMark name

/-- Names with a point behind each but the last; empty ones are left out. -/
def qualified (f : Flavor) (outer : List String) (name : String) : String :=
  String.join ((outer.filter (· ≠ "")).map fun n => f.identifier n ++ ".") ++ f.identifier name

/-- A table behind its schema; an alias is written as it is. -/
def table (f : Flavor) (t : TableRef) : String :=
  f.qualified [t.schema] t.name ++ if t.alias_ = "" then "" else " " ++ t.alias_

/-- A column, behind its table where columns are qualified and it has one. -/
def column (f : Flavor) (qualify : Bool) (c : ColumnRef) : String :=
  if qualify ∧ c.table ≠ "" then f.qualified [c.schema, c.table] c.name else f.identifier c.name

def limitedType (name : String) (n : Nat) : String :=
  name ++ "(" ++ toString n ++ ")"

def decimalType (name : String) (precision scale : Nat) : String :=
  name ++ "(" ++ toString precision ++ "," ++ toString scale ++ ")"

def genericType : FieldType → String
  | .autoField => "SERIAL"
  | .bigAutoField => "BIGSERIAL"
  | .smallInteger | .positiveSmallInteger => "SMALLINT"
  | .integer | .positiveInteger => "INTEGER"
  | .bigInteger => "BIGINT"
  | .float => "DOUBLE PRECISION"
  | .decimal p s => decimalType "NUMERIC" p s
  | .boolean | .nullBoolean => "BOOLEAN"
  | .char n | .email n | .url n | .slug n => limitedType "VARCHAR" n
  | .text => "TEXT"
  | .ipAddress => "VARCHAR(39)"
  | .binary => "BLOB"
  | .date => "DATE"
  | .dateTime => "TIMESTAMP"
  | .time => "TIME"
  | .uuid => "UUID"
  | .foreignKey target => genericType target

def mysqlType : FieldType → String
  | .autoField => "INTEGER AUTO_INCREMENT"
  | .bigAutoField => "BIGINT AUTO_INCREMENT"
  | .smallInteger => "SMALLINT"
  | .positiveSmallInteger => "SMALLINT UNSIGNED"
  | .integer => "INTEGER"
  | .positiveInteger => "INTEGER UNSIGNED"
  | .bigInteger => "BIGINT"
  | .float => "DOUBLE"
  | .decimal p s => decimalType "DECIMAL" p s
  | .boolean | .nullBoolean => "BOOLEAN"
  | .char n | .email n | .url n | .slug n => limitedType "VARCHAR" n
  | .text => "LONGTEXT"
  | .ipAddress => "VARCHAR(39)"
  | .binary => "LONGBLOB"
  | .date => "DATE"
  | .dateTime => "DATETIME(6)"
  | .time => "TIME(6)"
  | .uuid => "CHAR(36)"
  | .foreignKey target => mysqlType target

/-- The type in the declaration of a column. A reference is declared as what it
refers to is bound as. -/
def columnType (f : Flavor) (t : FieldType) : String :=
  match f, t.declared with
  | generic, t => genericType t
  | postgres, .binary => "BYTEA"
  | postgres, t => genericType t
  | mysql, t => mysqlType t

/-- The type of an argument of a prepared statement. -/
def bindType (f : Flavor) (t : FieldType) : String :=
  f.columnType t.bindType

end Flavor

end PreparedSql
