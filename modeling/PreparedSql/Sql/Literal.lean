import PreparedSql.Calendar.Printer
import PreparedSql.Failure.Basic
import PreparedSql.Number.Layout
import PreparedSql.Sql.Flavor
import PreparedSql.Text.Hex

/-! Values as SQL literals. -/
namespace PreparedSql.Flavor

def single (s : String) : String :=
  "'" ++ s ++ "'"

/-- What stands for one character of a text in MySQL. -/
def mysqlChar (c : Char) : List Char :=
  if c = '\'' then ['\'', '\'']
  else if c = '\\' then ['\\', '\\']
  else if c = '\x00' then ['\\', '0']
  else [c]

/-- A text between single quotes. A quote inside is doubled; MySQL also takes
a backslash for an escape. -/
def string (f : Flavor) (s : String) : String :=
  match f with
  | generic | postgres => Text.enclosed '\'' s
  | mysql => single (String.ofList (s.toList.flatMap mysqlChar))

def boolean (b : Bool) : String :=
  if b then "true" else "false"

/-- The words for a number without digits: NaN and the infinities. -/
def infinity (f : Flavor) (negative : Bool) : String :=
  match f with
  | generic | postgres => if negative then "'-Infinity'" else "'Infinity'"
  | mysql => if negative then "-1.0e+10000" else "1.0e+10000"

/-- A binary number; what has no digits is written as a word. -/
def number (f : Flavor) (layout : FloatLayout) {format : BinaryFormat} (x : Binary format) : String :=
  if x.isNan then "'NaN'"
  else if x.isInfinite then f.infinity x.isNegative
  else layout.text x

def blob (f : Flavor) (bytes : List UInt8) : String :=
  match f with
  | generic | mysql => "X" ++ single (Text.hexEncodeUpper bytes)
  | postgres => single ("\\x" ++ Text.hexEncode bytes)

/-- Items between the brackets of an array, or of a list in MySQL. -/
def listing (f : Flavor) (items : List String) : String :=
  match f with
  | generic | postgres => "ARRAY[" ++ String.intercalate "," items ++ "]"
  | mysql => "(" ++ String.intercalate ", " items ++ ")"

/-- A moment with an offset, written at UTC; there is nothing to write when it leaves the calendar
by this. -/
def zoned (z : ZonedMoment) : Except Failure String :=
  match z.atUtc? with
  | some m => .ok (single m.sqlText)
  | none => .error (.conversion .outsideCalendar)

mutual

/-- The literal of a value, unless a moment in it leaves the calendar at UTC. -/
def literal (f : Flavor) : Value → Except Failure String
  | .boolean (some b) => .ok (boolean b)
  | .int _ (some n) => .ok (toString n.value)
  | .single (some x) => .ok (f.number .sqlSingle x)
  | .double (some x) => .ok (f.number .sqlDouble x)
  | .decimal (some d) _ _ => .ok d.toText
  | .varchar (some s) | .unknown (some s) => .ok (f.string s)
  | .blob (some b) => .ok (f.blob b)
  | .date (some d) => .ok (single d.sqlText)
  | .time (some t) => .ok (single t.sqlText)
  | .timestamp (some m) => .ok (single m.sqlText)
  | .zoned (some z) => zoned z
  | .uuid (some u) => .ok (single u.toText)
  | .list (some items) _ => f.listing <$> literals f items
  | _ => .ok "NULL"

def literals (f : Flavor) : List Value → Except Failure (List String)
  | [] => .ok []
  | v :: vs => do
    let front ← literal f v
    let rest ← literals f vs
    return front :: rest

end

end PreparedSql.Flavor
