import PreparedSql.Exchange.Value
import PreparedSql.Session.Row

/-! Field types, tables, columns and rows as plain data. -/
namespace PreparedSql

namespace FieldType

/-- The types without parameters; their names are those in messages. -/
def plain : List FieldType :=
  [autoField, bigAutoField, smallInteger, integer, bigInteger, positiveSmallInteger,
    positiveInteger, float, boolean, nullBoolean, text, ipAddress, binary, date, dateTime, time,
    uuid]

/-- Names of types with the usual limits. -/
def usual : List (String × FieldType) :=
  [("EMAIL", email 254), ("URL", url 200), ("SLUG", slug 50)]

def ofName? (name : String) : Option FieldType :=
  (plain.find? (·.inspect == name)).or (usual.lookup name)

def toPlain : FieldType → Data
  | decimal p s => .tagged "Decimal" (p, s)
  | char n => .tagged "Char" n
  | email n => .tagged "Email" n
  | url n => .tagged "Url" n
  | slug n => .tagged "Slug" n
  | foreignKey target => .tagged "ForeignKey" (toPlain target)
  | t => .text t.inspect

def ofPlain? : Data → Option FieldType
  | .text name => ofName? name
  | .record [("Decimal", d)] => (ofData? d).map fun (p, s) => decimal p s
  | .record [("Char", d)] => (ofData? d).map char
  | .record [("Email", d)] => (ofData? d).map email
  | .record [("Url", d)] => (ofData? d).map url
  | .record [("Slug", d)] => (ofData? d).map slug
  | .record [("ForeignKey", d)] => (ofPlain? d).map foreignKey
  | _ => none

end FieldType

instance : ToData FieldType := ⟨FieldType.toPlain⟩

instance : OfData FieldType := ⟨FieldType.ofPlain?⟩

instance : OfData TableRef where
  ofData? d := do return ⟨← d.get? "table", ← d.getD? "schema" "", ← d.getD? "alias" ""⟩

/-- A column of a table, which need not name the table. -/
def ColumnRef.ofPlain? (table : String) (d : Data) : Option ColumnRef := do
  return ⟨← d.get? "name", ← d.getD? "table" table, ← d.getD? "schema" ""⟩

instance : OfData ColumnRef := ⟨ColumnRef.ofPlain? ""⟩

def Column.ofPlain? (table : String) (d : Data) : Option Column := do
  return {
    ref := ← ColumnRef.ofPlain? table d
    fieldType := ← d.get? "type"
    nullable := ← d.flag? "nullable"
    primaryKey := ← d.flag? "pk"
    unique := ← d.flag? "unique"
    references := ← d.get? "references" }

/-- The primary key of a model is the first column that is one, or else the first of all. -/
instance : OfData Model where
  ofData? d := do
    let table : TableRef ← ofData? d
    let columns ← (← d.get? "columns" : List Data).mapM (Column.ofPlain? table.name)
    return ⟨table, columns, ← (columns.find? Column.primaryKey).or columns.head?⟩

instance : OfData LabeledRow where
  ofData? d := do return ⟨← d.get? "labels", ← d.get? "values"⟩

instance : ToData LabeledRow where
  toData r := .record [("names", toData r.labels), ("values", toData r.values)]

/-- The number of rows and the last identifier, by their digits. -/
instance : ToData Affected where
  toData a := toData (toString a.rows, a.lastId.map toString)

instance : OfData Affected where
  ofData? d := do
    let (rows, lastId) : Nat × Option Int ← ofData? d
    return ⟨rows, lastId⟩

end PreparedSql
