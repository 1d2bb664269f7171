import PreparedSql.Session.Row

/-! Rows of MySQL. A text is taken for what it is only when it is read, for
the server sends most values as texts. -/
namespace PreparedSql.MySql

/-- A column: its name, the number of its type, and that of its character set. -/
structure ColumnInfo where
  name : String
  typeCode : Nat
  charset : Nat

/-- The character set of plain bytes. -/
def binaryCharset : Nat := 63

/-- Numbers of the text and blob types. -/
def textTypes : List Nat := [15, 249, 250, 251, 252, 253, 254]

def ColumnInfo.isBinary (c : ColumnInfo) : Bool :=
  c.charset == binaryCharset && textTypes.contains c.typeCode

/-- A cell as the server sends it. -/
inductive Cell where
  | null
  | bytes (b : List UInt8)
  | int (n : Ranged .int64)
  | uint (n : Ranged .uint64)
  | single (x : Single)
  | double (x : Double)
  | moment (year month day hour minute second microsecond : Nat)
  | duration (negative : Bool) (days hours minutes seconds microseconds : Nat)

/-- The value of a cell, when there is one: texts have to be UTF-8, moments
have to exist, and a duration has to be a time of day. -/
def Cell.value? (c : ColumnInfo) : Cell → Option Value
  | null => some .null
  | bytes b =>
    if c.isBinary then some (.blob (some b))
    else (String.fromUTF8? ⟨b.toArray⟩).map fun s => .unknown (some s)
  | int n => some (.int .int64 (some n))
  | uint n => some (.int .uint64 (some n))
  | single x => some (.single (some x))
  | double x => some (.double (some x))
  | moment year month day hour minute second microsecond => do
    let date ← Date.of? year month day
    let time ← TimeOfDay.of? hour minute second (1000 * microsecond)
    return .timestamp (some ⟨date, time⟩)
  | duration negative days hours minutes seconds microseconds =>
    if negative ∨ days ≠ 0 then none
    else (TimeOfDay.of? hours minutes seconds (1000 * microseconds)).map fun t => .time (some t)

/-- The row, when no cell is missing and every cell has a value. -/
def row? (columns : List ColumnInfo) (cells : List (Option Cell)) : Option LabeledRow := do
  let values ← (columns.zip cells).mapM fun (column, cell) => do (← cell).value? column
  return ⟨columns.map ColumnInfo.name, values⟩

end PreparedSql.MySql
