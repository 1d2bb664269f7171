import PreparedSql.Action
import PreparedSql.Native.OfValue
import PreparedSql.Schema.Column

/-! Rows as connections answer them, and the shapes in which they are read. -/
namespace PreparedSql

structure LabeledRow where
  labels : List String
  values : List Value

/-- What a statement did that answers no rows. -/
structure Affected where
  rows : Nat := 0
  lastId : Option Int := none
  deriving DecidableEq, Repr

namespace Affected

/-- Adds the rows up; the last identifier that is known counts. -/
def add (a b : Affected) : Affected :=
  ⟨a.rows + b.rows, b.lastId.or a.lastId⟩

def sum (as : List Affected) : Affected :=
  as.foldl add {}

end Affected

/-- One item of what a connection answers. -/
inductive Answer where
  | row (r : LabeledRow)
  | affected (a : Affected)

/-- A way to read rows. -/
abbrev RowReader (α : Type) := LabeledRow → Except Failure α

def Failure.ofConversion {α : Type} : Except ConversionFault α → Except Failure α
  | .ok x => .ok x
  | .error fault => .error (.conversion fault)

namespace LabeledRow

/-- The place of the first column with the name. -/
def position? (r : LabeledRow) (name : String) : Option Nat :=
  r.labels.findIdx? (· == name)

def column? (r : LabeledRow) (name : String) : Option Value :=
  (r.position? name).bind fun i => r.values[i]?

/-- Takes the value of a column out of the row, where NULL is left, and reads it. -/
def take (t : Native) (name : String) : Action LabeledRow t.Carrier := do
  let r ← get
  match r.position? name with
  | none => throw (.missingColumn name r.labels)
  | some i =>
    set ({ r with values := r.values.set i .null } : LabeledRow)
    Action.ofExcept (Failure.ofConversion (t.ofValue (r.values.getD i .null)))

/-- Reads what an action takes out of the row. -/
def reading {α : Type} (a : Action LabeledRow α) : RowReader α := fun r =>
  (a.exec r []).1.1

/-- The row as it is. -/
def whole : RowReader LabeledRow := fun r => .ok r

/-- The values without their labels. -/
def bare : RowReader (List Value) := fun r => .ok r.values

/-- The first value. -/
def scalar (t : Native) : RowReader t.Carrier := fun r =>
  match r.values with
  | v :: _ => Failure.ofConversion (t.ofValue v)
  | [] => .error .noColumns

/-- The first two values. -/
def pair (s t : Native) : RowReader (s.Carrier × t.Carrier) := fun r =>
  match r.values with
  | v :: w :: _ => do
    return (← Failure.ofConversion (s.ofValue v), ← Failure.ofConversion (t.ofValue w))
  | _ => .error (.fewerColumns 2)

/-- The first three values. -/
def triple (s t u : Native) : RowReader (s.Carrier × t.Carrier × u.Carrier) := fun r =>
  match r.values with
  | v :: w :: x :: _ => do
    return (← Failure.ofConversion (s.ofValue v), ← Failure.ofConversion (t.ofValue w),
      ← Failure.ofConversion (u.ofValue x))
  | _ => .error (.fewerColumns 3)

end LabeledRow

namespace Column

/-- The type in which an application holds the values of a column. -/
def native (c : Column) : Native :=
  let t : Native := match c.fieldType.bindType with
    | .smallInteger | .positiveSmallInteger => .int .int16
    | .integer | .positiveInteger => .int .int32
    | .bigInteger => .int .int64
    | .float => .double
    | .decimal _ _ => .decimal
    | .boolean | .nullBoolean => .boolean
    | .binary => .bytes
    | .date => .date
    | .dateTime => .moment
    | .time => .time
    | .uuid => .uuid
    | _ => .text
  if c.nullable || c.primaryKey then .optional t else t

end Column

namespace Model

/-- An instance of a model: the values of its columns. -/
abbrev Instance := NamedRow

/-- Takes the columns of a model out of a row, one after the other. -/
def takeColumns : List Column → Action LabeledRow NamedRow
  | [] => pure []
  | c :: rest => do
    let x ← LabeledRow.take c.native c.name
    let others ← takeColumns rest
    return (c.name, c.native.toValue x) :: others

/-- Reads a row as an instance. -/
def instanceOf (m : Model) : RowReader Model.Instance :=
  LabeledRow.reading (takeColumns m.columns)

/-- The value of the primary key; NULL when the instance has none. -/
def keyOf (m : Model) (i : Model.Instance) : Value :=
  ((i.find? (·.1 == m.primaryKey.name)).map (·.2)).getD .null

/-- The values to be stored; a primary key that is NULL is left to the database. -/
def rowOf (m : Model) (i : Model.Instance) : NamedRow :=
  i.filter fun (name, v) => !(name == m.primaryKey.name && v.isNull)

end Model

end PreparedSql
