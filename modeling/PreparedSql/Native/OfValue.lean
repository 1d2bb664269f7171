import PreparedSql.Native.Reader
import PreparedSql.Text.Basic

/-! Values as members of an application's types. Numbers change their width
when nothing is lost; texts are read, without the blanks around them. -/
namespace PreparedSql.Native

/-- The whole number that a value stands for, or the text to read it from. -/
inductive Whole where
  | number (n : Int)
  | text (s : String)

def whole? (t : Native) (v : Value) : Except ConversionFault Whole :=
  match v with
  | .int _ (some n) => .ok (.number n.value)
  | .decimal (some d) _ _ => if d.isWhole then .ok (.number d.whole) else .error (.notWhole d)
  | .varchar (some s) | .unknown (some s) => .ok (.text (Text.trim s))
  | _ => .error (.inconvertible v t)

def intOfValue (k : IntKind) (v : Value) : Except ConversionFault (Ranged k) := do
  match ← whole? (int k) v with
  | .text s => parse (int k) s
  | .number n =>
    match Ranged.ofInt? k n with
    | some n => .ok n
    | none => .error (.outOfRange (toString n) (int k))

def binaryOfValue {f : BinaryFormat} (t : Native) (read : String → Except ConversionFault (Binary f))
    (v : Value) : Except ConversionFault (Binary f) :=
  match v with
  | .single (some x) => .ok x.convert
  | .double (some x) => .ok x.convert
  | .int _ (some n) => .ok (Binary.ofInt n.value)
  | .decimal (some d) _ _ => .ok d.toDouble.convert
  | .varchar (some s) | .unknown (some s) => read (Text.trim s)
  | _ => .error (.inconvertible v t)

def booleanOfValue (v : Value) : Except ConversionFault Bool :=
  match v with
  | .boolean (some b) => .ok b
  | .int _ (some n) => .ok (n.value != 0)
  | .unknown (some s) => parse boolean s
  | _ => .error (.inconvertible v boolean)

def textOfValue (v : Value) : Except ConversionFault String :=
  match v with
  | .varchar (some s) | .unknown (some s) => .ok s
  | _ => .error (.inconvertible v text)

def bytesOfValue (v : Value) : Except ConversionFault (List UInt8) :=
  match v with
  | .blob (some b) => .ok b
  | .unknown (some s) => parse bytes s
  | _ => .error (.inconvertible v bytes)

def decimalOfValue (v : Value) : Except ConversionFault Decimal :=
  let bounded (d : Option Decimal) : Except ConversionFault Decimal :=
    match d with
    | some d => .ok d
    | none => .error (.inconvertible v decimal)
  match v with
  | .decimal (some d) _ _ => .ok d
  | .int _ (some n) => bounded (Decimal.of? (n.value < 0) n.value.natAbs 0)
  | .single (some x) => bounded (Decimal.ofBinary? x)
  | .double (some x) => bounded (Decimal.ofBinary? x)
  | .varchar (some s) | .unknown (some s) => parse decimal (Text.trim s)
  | _ => .error (.inconvertible v decimal)

def dateOfValue (v : Value) : Except ConversionFault Date :=
  match v with
  | .date (some d) => .ok d
  | .varchar (some s) | .unknown (some s) => parse date (Text.trim s)
  | _ => .error (.inconvertible v date)

def timeOfValue (v : Value) : Except ConversionFault TimeOfDay :=
  match v with
  | .time (some t) => .ok t
  | .varchar (some s) | .unknown (some s) => parse time (Text.trim s)
  | _ => .error (.inconvertible v time)

/-- A day counts from its midnight, a moment with an offset as it is at UTC. -/
def momentOfValue (v : Value) : Except ConversionFault Moment :=
  match v with
  | .timestamp (some m) => .ok m
  | .date (some d) => .ok (Moment.startOf d)
  | .zoned (some z) =>
    match z.atUtc? with
    | some m => .ok m
    | none => .error .outsideCalendar
  | .varchar (some s) | .unknown (some s) => parse moment (Text.trim s)
  | _ => .error (.inconvertible v moment)

def zonedOfValue (v : Value) : Except ConversionFault ZonedMoment :=
  match v with
  | .zoned (some z) => .ok z
  | .timestamp (some m) => .ok (ZonedMoment.utc m)
  | .varchar (some s) | .unknown (some s) => parse zoned (Text.trim s)
  | _ => .error (.inconvertible v zoned)

def uuidOfValue (v : Value) : Except ConversionFault Uuid :=
  match v with
  | .uuid (some u) => .ok u
  | .varchar (some s) | .unknown (some s) => parse uuid (Text.trim s)
  | _ => .error (.inconvertible v uuid)

/-- The member of the type that a value stands for. -/
def ofValue : (t : Native) → Value → Except ConversionFault t.Carrier
  | int k, v => intOfValue k v
  | single, v => binaryOfValue single (parse single) v
  | double, v => binaryOfValue double (parse double) v
  | boolean, v => booleanOfValue v
  | text, v => textOfValue v
  | borrowedText, v => .error (.notBorrowed v)
  | bytes, v => bytesOfValue v
  | decimal, v => decimalOfValue v
  | date, v => dateOfValue v
  | time, v => timeOfValue v
  | moment, v => momentOfValue v
  | zoned, v => zonedOfValue v
  | uuid, v => uuidOfValue v
  | optional t, v => if v.isNull then .ok none else (ofValue t v).map some
  | sequence t, v =>
    match v with
    | .list (some items) _ => items.mapM (ofValue t)
    | _ => .error (.inconvertible v (sequence t))

/-- A whole number keeps its value when its width changes. -/
theorem ofValue_int {k k' : IntKind} {n : Ranged k} {m : Ranged k'} (same : m.value = n.value) :
    ofValue (int k') (.int k (some n)) = .ok m := by
  have kept : Ranged.ofInt? k' n.value = some m := Ranged.ofInt?_eq_some_iff.mpr same
  show intOfValue k' (.int k (some n)) = .ok m
  simp only [intOfValue, whole?, bind, Except.bind, kept]

end PreparedSql.Native
