import PreparedSql.Native.Kind
import PreparedSql.Text.Basic
import PreparedSql.Value.Inspect

/-! Why a value or a text is no member of an application's type. -/
namespace PreparedSql

inductive ConversionFault where
  /-- The kind of the value has nothing to do with the type. -/
  | inconvertible (v : Value) (t : Native)
  | notWhole (d : Decimal)
  | outOfRange (number : String) (t : Native)
  | noInteger (text : String) (t : Native)
  | noFloat (text : String)
  | noBoolean (text : String)
  | noBytes (text : String)
  | noDecimal (text : String)
  /-- No pattern of days and times matches. -/
  | noMoment (text : String) (t : Native)
  /-- A pattern matches, and the calendar has no such day or time. -/
  | noSuchMoment
  | shortUuid (text : String)
  | noUuid (text : String)
  /-- The type cannot be read from text at all. -/
  | unreadable (text : String) (t : Native)
  /-- Text can only be read into a type that owns it. -/
  | notBorrowed (v : Value)
  | leftover (text : String) (t : Native) (rest : String)
  /-- A cut does not fall between two characters of the text. -/
  | splitCharacter
  /-- The calendar does not have the moment at UTC. -/
  | outsideCalendar

namespace ConversionFault

open Text (truncated)

/-- The message; nothing when the calendar itself reports, or nobody does. -/
def message? : ConversionFault → Option String
  | inconvertible v t => s!"Cannot convert {v.inspect} to {t.name}"
  | notWhole d => s!"Value {d.toText}: Decimal is not an integer"
  | outOfRange number t => s!"Value {number} is out of range for {t.name}"
  | noInteger text t => "Cannot extract " ++ t.name ++ " from `" ++ truncated text ++ "`"
  | noFloat text => "Cannot extract a floating point value from `" ++ truncated text ++ "`"
  | noBoolean text => "Cannot parse boolean from '" ++ text ++ "'"
  | noBytes text => "While decoding `" ++ truncated text ++ "` as a blob"
  | noDecimal text => "Cannot extract a Decimal from `" ++ truncated text ++ "`"
  | noMoment text t => "Cannot extract from `" ++ text ++ "` as " ++ t.name
  | noSuchMoment => none
  | shortUuid text | noUuid text => "Cannot extract a uuid value from `" ++ truncated text ++ "`"
  | unreadable text t => "Cannot parse '" ++ text ++ "' as " ++ t.name
  | notBorrowed v => s!"Cannot borrow a string from {v.inspect}, decode it as String instead"
  | leftover text t rest =>
    "Value `" ++ truncated text ++ "` parsed correctly as " ++ t.name
      ++ " but it did not consume all the input (remaining: `" ++ truncated rest ++ "`)"
  | splitCharacter | outsideCalendar => none

/-- Nothing is reported: the program stops. -/
def stops : ConversionFault → Bool
  | splitCharacter | outsideCalendar => true
  | _ => false

/-- The message stands over the report of a reader of numbers, bytes or identifiers. -/
def hasForeignCause : ConversionFault → Bool
  | noFloat _ | noBytes _ | noDecimal _ | noUuid _ => true
  | _ => false

end ConversionFault

end PreparedSql
