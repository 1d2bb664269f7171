import PreparedSql.Failure.Reason
import PreparedSql.Native.OfValue
import PreparedSql.Net.Mail
import PreparedSql.Net.Url
import PreparedSql.Number.Layout
import PreparedSql.Schema.FieldType

/-! Cleaning: a value becomes the kind of value that carries a field type, or
is refused with a reason. -/
namespace PreparedSql.FieldType

/-- What cleaning answers. -/
abbrev Cleaned (α : Type) := Except Reason α

/-- A conversion whose refusal is a reason of its own. -/
def orReason {α : Type} (reason : ConversionFault → Reason) : Except ConversionFault α → Cleaned α
  | .ok x => .ok x
  | .error fault => .error (reason fault)

/-- A whole number between the limits; truth values and binary numbers are not taken for one. -/
def cleanInteger (v : Value) (least greatest : Int) : Cleaned Int := do
  let n ← match v with
    | .boolean _ | .single _ | .double _ => throw (.expected "an integer" v)
    | _ => orReason .notConverted (Native.ofValue (.int .int64) v)
  if n.value < least then throw (.below least)
  if greatest < n.value then throw (.above greatest)
  return n.value

/-- The least and greatest number of an integer type. -/
def integerRange : FieldType → Int × Int
  | smallInteger => (IntKind.int16.least, IntKind.int16.greatest)
  | bigInteger => (IntKind.int64.least, IntKind.int64.greatest)
  | positiveSmallInteger => (0, IntKind.int16.greatest)
  | positiveInteger => (0, IntKind.int32.greatest)
  | _ => (IntKind.int32.least, IntKind.int32.greatest)

def cleanIntegerAs (t : FieldType) (k : IntKind) (v : Value) : Cleaned Value := do
  let n ← cleanInteger v t.integerRange.1 t.integerRange.2
  return .int k (some (Ranged.clamp k n))

def cleanFloat (v : Value) : Cleaned Value :=
  match v with
  | .boolean _ => .error (.expected "a number" v)
  | _ => (orReason (fun _ => .numberRequired) (Native.ofValue .double v)).map fun x =>
      .double (some x)

/-- A decimal number with no needless places, within the places and the whole
digits of the type. -/
def cleanDecimal (precision scale : Nat) (v : Value) : Cleaned Value := do
  let d ← match v with
    | .boolean _ => throw (.expected "a decimal number" v)
    | _ => orReason (fun _ => .numberRequired) (Native.ofValue .decimal v)
  let d := d.normalize
  let digits := (Nat.toDigits 10 d.units).length
  if scale < d.scale then throw (.tooManyPlaces scale)
  if precision - scale < digits - d.scale then throw (.tooManyWholeDigits (precision - scale))
  return .decimal (some d) precision scale

def cleanBoolean (v : Value) : Cleaned Value :=
  match v with
  | .boolean (some _) => .ok v
  | _ => .error (.expected "either true or false" v)

/-- The text of a text, a truth value, a number or an identifier. -/
def stringify (v : Value) : Cleaned String :=
  match v with
  | .varchar (some s) | .unknown (some s) => .ok s
  | .boolean (some b) => .ok (if b then "True" else "False")
  | .int _ (some n) => .ok (toString n.value)
  | .single (some x) => .ok (FloatLayout.plain.text x)
  | .double (some x) => .ok (FloatLayout.plain.text x)
  | .decimal (some d) _ _ => .ok d.toText
  | .uuid (some u) => .ok u.toText
  | _ => .error (.expected "a string" v)

/-- A text of at most `limit` characters that passes the test. -/
def cleanText (limit : Option Nat) (test : String → Bool) (reason : Reason) (v : Value) :
    Cleaned Value := do
  let s ← stringify v
  match limit with
  | some limit => if limit < s.length then throw (.tooLong limit s.length)
  | none => pure ()
  if test s then return .varchar (some s) else throw reason

/-- A URL of the web or of a file transfer, with a host. -/
def isWebUrl (s : String) : Bool :=
  match Url.ofText? s with
  | some u => ["http", "https", "ftp", "ftps"].contains u.scheme && u.host.isSome
  | none => false

/-- An address in its canonical form. -/
def cleanAddress (v : Value) : Cleaned Value :=
  match v with
  | .varchar (some s) | .unknown (some s) =>
    match IpAddress.ofText? (Text.trim s) with
    | some a => .ok (.varchar (some a.toText))
    | none => .error .invalidAddress
  | _ => .error (.expected "an IP address string" v)

def cleanBinary (v : Value) : Cleaned Value :=
  match v with
  | .blob (some _) => .ok v
  | _ => .error (.expected "binary data" v)

def cleanDate (v : Value) : Cleaned Value :=
  match v with
  | .date (some d) => .ok (.date (some d))
  | .timestamp _ | .zoned _ =>
    (orReason .notConverted (Native.ofValue .moment v)).map fun m => .date (some m.date)
  | .varchar (some s) =>
    (orReason (fun _ => .invalidDate s) (Native.parse .date (Text.trim s))).map fun d =>
      .date (some d)
  | _ => .error (.expected "a date" v)

/-- A moment, or a day for its midnight. -/
def cleanMoment (v : Value) : Cleaned Value :=
  match v with
  | .date _ | .timestamp _ | .zoned _ =>
    (orReason .notConverted (Native.ofValue .moment v)).map fun m => .timestamp (some m)
  | .varchar (some s) =>
    let s := Text.trim s
    match Native.parse .moment s with
    | .ok m => .ok (.timestamp (some m))
    | .error _ =>
      (orReason (fun _ => .invalidMoment s) (Native.parse .date s)).map fun d =>
        .timestamp (some (Moment.startOf d))
  | _ => .error (.expected "a date and time" v)

def cleanTime (v : Value) : Cleaned Value :=
  match v with
  | .time (some t) => .ok (.time (some t))
  | .timestamp (some m) => .ok (.time (some m.time))
  | .varchar (some s) =>
    (orReason (fun _ => .invalidTime s) (Native.parse .time (Text.trim s))).map fun t =>
      .time (some t)
  | _ => .error (.expected "a time" v)

def cleanUuid (v : Value) : Cleaned Value :=
  match v with
  | .uuid _ | .varchar _ | .unknown _ =>
    (orReason (fun _ => .invalidUuid) (Native.ofValue .uuid v)).map fun u => .uuid (some u)
  | _ => .error (.expected "a UUID" v)

/-- Cleans a value that is not NULL, for a type that parameters are bound as. -/
def cleanPresent (t : FieldType) (v : Value) : Cleaned Value :=
  match t with
  | smallInteger | positiveSmallInteger => t.cleanIntegerAs .int16 v
  | integer | positiveInteger => t.cleanIntegerAs .int32 v
  | bigInteger => t.cleanIntegerAs .int64 v
  | float => cleanFloat v
  | decimal precision scale => cleanDecimal precision scale v
  | boolean | nullBoolean => cleanBoolean v
  | char n => cleanText (some n) (fun _ => true) .mustNotBeNull v
  | text => cleanText none (fun _ => true) .mustNotBeNull v
  | email n => cleanText (some n) Net.isEmail .invalidEmail v
  | url n => cleanText (some n) isWebUrl .invalidUrl v
  | slug n => cleanText (some n) Net.isSlug .invalidSlug v
  | ipAddress => cleanAddress v
  | binary => cleanBinary v
  | date => cleanDate v
  | dateTime => cleanMoment v
  | time => cleanTime v
  | uuid => cleanUuid v
  | autoField | bigAutoField | foreignKey _ => .error .notABindType

/-- The value as the kind that carries the type. NULL passes where it may stand. -/
def clean (t : FieldType) (v : Value) (nullable : Bool) : Cleaned Value :=
  if v.isNull then
    if nullable || t == nullBoolean then .ok t.valuePrototype else .error .mustNotBeNull
  else t.bindType.cleanPresent v

end PreparedSql.FieldType
