import PreparedSql.Value.Basic

/-! The types in which an application holds what a database stores. -/
namespace PreparedSql

inductive Native where
  | int (k : IntKind)
  | single
  | double
  | boolean
  | text
  /-- Text owned by somebody else; it can be stored but not read back. -/
  | borrowedText
  | bytes
  | decimal
  | date
  | time
  | moment
  | zoned
  | uuid
  | optional (t : Native)
  | sequence (t : Native)
  deriving DecidableEq, Repr

namespace Native

/-- What a member of the type is. -/
@[reducible] def Carrier : Native → Type
  | int k => Ranged k
  | single => Single
  | double => Double
  | boolean => Bool
  | text => String
  | borrowedText => String
  | bytes => List UInt8
  | decimal => Decimal
  | date => Date
  | time => TimeOfDay
  | moment => Moment
  | zoned => ZonedMoment
  | uuid => Uuid
  | optional t => Option (Carrier t)
  | sequence t => List (Carrier t)

def intName : IntKind → String
  | .int8 => "i8"
  | .int16 => "i16"
  | .int32 => "i32"
  | .int64 => "i64"
  | .uint8 => "u8"
  | .uint16 => "u16"
  | .uint32 => "u32"
  | .uint64 => "u64"

/-- The name of the type in messages. -/
def name : Native → String
  | int k => intName k
  | single => "f32"
  | double => "f64"
  | boolean => "bool"
  | text => "alloc::string::String"
  | borrowedText => "&str"
  | bytes => "alloc::boxed::Box<[u8]>"
  | decimal => "rust_decimal::decimal::Decimal"
  | date => "time::date::Date"
  | time => "time::time::Time"
  | moment => "time::plain_date_time::PlainDateTime"
  | zoned => "time::offset_date_time::OffsetDateTime"
  | uuid => "uuid::Uuid"
  | optional t => "core::option::Option<" ++ name t ++ ">"
  | sequence t => "alloc::vec::Vec<" ++ name t ++ ">"

/-- Whether a member may be missing. -/
def isOptional : Native → Bool
  | optional _ => true
  | _ => false

/-- The NULL that describes the type. -/
def emptyValue : Native → Value
  | int k => .int k none
  | single => .single none
  | double => .double none
  | boolean => .boolean none
  | text => .varchar none
  | borrowedText => .varchar none
  | bytes => .blob none
  | decimal => .decimal none 0 0
  | date => .date none
  | time => .time none
  | moment => .timestamp none
  | zoned => .zoned none
  | uuid => .uuid none
  | optional t => emptyValue t
  | sequence t => .list none (emptyValue t)

/-- The value that stores a member of the type. A decimal takes its own scale. -/
def toValue : (t : Native) → t.Carrier → Value
  | int k, n => .int k (some n)
  | single, x => .single (some x)
  | double, x => .double (some x)
  | boolean, b => .boolean (some b)
  | text, s => .varchar (some s)
  | borrowedText, s => .varchar (some s)
  | bytes, b => .blob (some b)
  | decimal, d => .decimal (some d) 0 d.scale
  | date, d => .date (some d)
  | time, t => .time (some t)
  | moment, m => .timestamp (some m)
  | zoned, z => .zoned (some z)
  | uuid, u => .uuid (some u)
  | optional t, some x => toValue t x
  | optional t, none => emptyValue t
  | sequence t, xs => .list (some (xs.map (toValue t))) (emptyValue t)

theorem isNull_emptyValue (t : Native) : t.emptyValue.isNull = true := by
  induction t with
  | optional t ih => exact ih
  | _ => rfl

end Native

end PreparedSql
