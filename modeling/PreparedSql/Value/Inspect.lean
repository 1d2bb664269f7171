import PreparedSql.Calendar.Printer
import PreparedSql.Number.Layout
import PreparedSql.Text.Printable
import PreparedSql.Value.Basic

/-! Values as messages show them: the kind and, in parentheses, what it holds. -/
namespace PreparedSql

def IntKind.label : IntKind → String
  | .int8 => "Int8"
  | .int16 => "Int16"
  | .int32 => "Int32"
  | .int64 => "Int64"
  | .uint8 => "UInt8"
  | .uint16 => "UInt16"
  | .uint32 => "UInt32"
  | .uint64 => "UInt64"

namespace Value

/-- Whether something is there, and what. -/
def presence : Option String → String
  | none => "None"
  | some s => "Some(" ++ s ++ ")"

/-- A kind and the texts of its parts. -/
def labeled (label : String) (parts : List String) : String :=
  label ++ "(" ++ String.intercalate ", " parts ++ ")"

/-- Texts between brackets. -/
def bracketed (items : List String) : String :=
  "[" ++ String.intercalate ", " items ++ "]"

mutual

/-- The kind of the value and what it holds. -/
def inspect : Value → String
  | null => "Null"
  | boolean v => labeled "Boolean" [presence (v.map fun b => if b then "true" else "false")]
  | int k v => labeled k.label [presence (v.map fun n => toString n.value)]
  | single v => labeled "Float32" [presence (v.map FloatLayout.message.text)]
  | double v => labeled "Float64" [presence (v.map FloatLayout.message.text)]
  | decimal v p s => labeled "Decimal" [presence (v.map Decimal.toText), toString p, toString s]
  | varchar v => labeled "Varchar" [presence (v.map Text.quoted)]
  | blob v =>
    labeled "Blob" [presence (v.map fun bytes => bracketed (bytes.map fun b => toString b.toNat))]
  | date v => labeled "Date" [presence (v.map Date.messageText)]
  | time v => labeled "Time" [presence (v.map TimeOfDay.messageText)]
  | timestamp v => labeled "Timestamp" [presence (v.map Moment.messageText)]
  | zoned v => labeled "TimestampWithTimezone" [presence (v.map ZonedMoment.messageText)]
  | uuid v => labeled "Uuid" [presence (v.map Uuid.toText)]
  | list none e => labeled "List" ["None", inspect e]
  | list (some items) e => labeled "List" [presence (some (bracketed (inspectAll items))), inspect e]
  | unknown v => labeled "Unknown" [presence (v.map Text.quoted)]

def inspectAll : List Value → List String
  | [] => []
  | v :: vs => inspect v :: inspectAll vs

end

end Value

end PreparedSql
