import PreparedSql.Value.Basic

/-! What a column means. The field type decides how a column is declared,
which type a compared parameter is bound as, and how its values are cleaned. -/
namespace PreparedSql

inductive FieldType where
  | autoField
  | bigAutoField
  | smallInteger
  | integer
  | bigInteger
  | positiveSmallInteger
  | positiveInteger
  | float
  | decimal (precision scale : Nat)
  | boolean
  | nullBoolean
  | char (maxLength : Nat)
  | text
  | email (maxLength : Nat)
  | url (maxLength : Nat)
  | slug (maxLength : Nat)
  | ipAddress
  | binary
  | date
  | dateTime
  | time
  | uuid
  | foreignKey (target : FieldType)
  deriving DecidableEq, Repr

namespace FieldType

/-- The type a parameter is bound as: a generated key is a plain integer, and a
reference is what it refers to. -/
def bindType : FieldType → FieldType
  | autoField => integer
  | bigAutoField => bigInteger
  | foreignKey target => bindType target
  | t => t

/-- The type a column is declared as: a reference is what it refers to is bound as. -/
def declared : FieldType → FieldType
  | foreignKey target => target.bindType
  | t => t

/-- The database generates the value. -/
def isAuto : FieldType → Bool
  | autoField | bigAutoField => true
  | _ => false

/-- The most characters a text may have. -/
def maxLength? : FieldType → Option Nat
  | char n | email n | url n | slug n => some n
  | ipAddress => some 39
  | _ => none

/-- The NULL of the kind of value that carries the type. -/
def valuePrototype : FieldType → Value
  | autoField | integer | positiveInteger => .int .int32 none
  | bigAutoField | bigInteger => .int .int64 none
  | smallInteger | positiveSmallInteger => .int .int16 none
  | float => .double none
  | decimal precision scale => .decimal none precision scale
  | boolean | nullBoolean => .boolean none
  | char _ | text | email _ | url _ | slug _ | ipAddress => .varchar none
  | binary => .blob none
  | date => .date none
  | dateTime => .timestamp none
  | time => .time none
  | uuid => .uuid none
  | foreignKey target => valuePrototype target

/-- The name of the type and its parameters in messages. -/
def inspect : FieldType → String
  | autoField => "AutoField"
  | bigAutoField => "BigAutoField"
  | smallInteger => "SmallInteger"
  | integer => "Integer"
  | bigInteger => "BigInteger"
  | positiveSmallInteger => "PositiveSmallInteger"
  | positiveInteger => "PositiveInteger"
  | float => "Float"
  | decimal p s =>
    "Decimal \x7b precision: " ++ toString p ++ ", scale: " ++ toString s ++ " \x7d"
  | boolean => "Boolean"
  | nullBoolean => "NullBoolean"
  | char n => limited "Char" n
  | text => "Text"
  | email n => limited "Email" n
  | url n => limited "Url" n
  | slug n => limited "Slug" n
  | ipAddress => "IpAddress"
  | binary => "Binary"
  | date => "Date"
  | dateTime => "DateTime"
  | time => "Time"
  | uuid => "Uuid"
  | foreignKey target => "ForeignKey \x7b target: " ++ inspect target ++ " \x7d"
where
  limited (label : String) (n : Nat) : String :=
    label ++ " \x7b max_length: " ++ toString n ++ " \x7d"

theorem valuePrototype_bindType (t : FieldType) : t.bindType.valuePrototype = t.valuePrototype := by
  induction t with
  | foreignKey target ih => exact ih
  | _ => rfl

theorem isNull_valuePrototype (t : FieldType) : t.valuePrototype.isNull = true := by
  induction t with
  | foreignKey target ih => exact ih
  | _ => rfl

end FieldType

end PreparedSql
