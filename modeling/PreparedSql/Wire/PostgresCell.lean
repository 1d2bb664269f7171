import PreparedSql.Failure.Basic
import PreparedSql.Number.Decimal
import PreparedSql.Wire.PostgresType

/-! Cells of PostgreSQL in binary form. Numbers are big endian; a day or a
moment counts from the start of 2000; a decimal number comes in groups of four
digits; an array is a list of cells behind its dimensions. -/
namespace PreparedSql.Postgres

/-- The number that bytes stand for, the first the highest. -/
def unsignedOf (bytes : List UInt8) : Nat :=
  bytes.foldl (fun n b => 256 * n + b.toNat) 0

/-- The number that bytes stand for in two's complement. -/
def signedOf (bytes : List UInt8) : Int :=
  let n := unsignedOf bytes
  let whole := Nat.pow 256 bytes.length
  if whole ≤ 2 * n then n - whole else n

/-- Reads a whole number that takes exactly the width of its kind. -/
def int? (k : IntKind) (bytes : List UInt8) : Option (Ranged k) :=
  if 8 * bytes.length = k.width then
    Ranged.ofInt? k (if k.isSigned then signedOf bytes else unsignedOf bytes)
  else none

def binary? (f : BinaryFormat) (bytes : List UInt8) : Option (Binary f) :=
  if 8 * bytes.length = f.width then some (Binary.ofBits (unsignedOf bytes)) else none

def boolean? : List UInt8 → Option Bool
  | [b] => some (b != 0)
  | _ => none

def text? (bytes : List UInt8) : Option String :=
  String.fromUTF8? ⟨bytes.toArray⟩

def date? (bytes : List UInt8) : Option Date := do
  Date.ofDays? (← int? .int32 bytes).value

/-- Microseconds since midnight, where a day follows the other. -/
def time? (bytes : List UInt8) : Option TimeOfDay := do
  let micro := ((← int? .int64 bytes).value % 86400000000).toNat
  let second := micro / 1000000
  TimeOfDay.of? (second / 3600) (second / 60 % 60) (second % 60) (1000 * (micro % 1000000))

def moment? (bytes : List UInt8) : Option Moment := do
  let micro := (← int? .int64 bytes).value
  Moment.ofSeconds? (micro / 1000000) (1000 * (micro % 1000000).toNat)

/-- Two bytes from the front as a number without sign. -/
def short? : List UInt8 → Option (Nat × List UInt8)
  | a :: b :: rest => some (unsignedOf [a, b], rest)
  | _ => none

/-- Four bytes from the front as a number with sign. -/
def word? : List UInt8 → Option (Int × List UInt8)
  | a :: b :: c :: d :: rest => some (signedOf [a, b, c, d], rest)
  | _ => none

/-- The first numbers of two bytes each. -/
def groups? : Nat → List UInt8 → Option (List Nat)
  | 0, _ => some []
  | n + 1, bytes => do
    let (g, rest) ← short? bytes
    return g :: (← groups? n rest)

/-- Units with a scale, without sign. -/
structure Magnitude where
  units : Nat
  scale : Nat

namespace Magnitude

/-- Gives up places until the units are in bounds: the fewest, and a half goes
to the even neighbour. Nothing when there are not enough places. -/
def bounded? (m : Magnitude) : Nat → Option Magnitude
  | 0 => if m.units < decimalBound then some m else none
  | dropped + 1 =>
    match bounded? m dropped with
    | some kept => some kept
    | none =>
      let units := roundHalfEven m.units (Nat.pow 10 (dropped + 1))
      if units < decimalBound ∧ dropped < m.scale then some ⟨units, m.scale - (dropped + 1)⟩
      else none

/-- The sum at the greater of the two scales, or with fewer places where it is
out of bounds. -/
def plus? (a b : Magnitude) : Option Magnitude :=
  let scale := max a.scale b.scale
  let units := a.units * Nat.pow 10 (scale - a.scale) + b.units * Nat.pow 10 (scale - b.scale)
  bounded? ⟨units, scale⟩ scale

/-- The same value with more places, as many of them as stay in bounds. -/
def widened (m : Magnitude) : Nat → Magnitude
  | 0 => m
  | n + 1 => if 10 * m.units < decimalBound then widened ⟨10 * m.units, m.scale + 1⟩ n else m

/-- The value at a scale. A half is rounded up; places beyond the bounds are left out. -/
def atScale (m : Magnitude) (scale : Nat) : Magnitude :=
  if m.scale ≤ scale then m.widened (scale - m.scale)
  else ⟨roundHalfUp m.units (Nat.pow 10 (m.scale - scale)), scale⟩

/-- Adds groups of four digits behind the point, of which the first ends at
`place`. The first group beyond the greatest scale is rounded to its last place. -/
def plusGroups? (m : Magnitude) (place : Nat) : List Nat → Option Magnitude
  | [] => some m
  | g :: groups =>
    if place ≤ maxScale then do (← m.plus? ⟨g, place⟩).plusGroups? (place + 4) groups
    else if place = maxScale + 4 ∧ 5000 ≤ g then m.plus? ⟨1, maxScale⟩
    else some m

end Magnitude

/-- The number that groups of four digits stand for, the first counting ten
thousand to the `weight`, with as many places as asked. -/
def decimalOf? (groups : List Nat) (weight : Int) (negative : Bool) (scale : Nat) :
    Option Decimal := do
  let before := (weight + 1).toNat
  let front := (groups.take before).foldl (fun n g => 10000 * n + g) 0
  let whole := front * Nat.pow 10000 (before - groups.length)
  if decimalBound ≤ whole then none
  let sum ← Magnitude.plusGroups? ⟨whole, 0⟩ (4 * ((-weight - 1).toNat + 1)) (groups.drop before)
  let last := sum.atScale (min scale maxScale)
  Decimal.of? negative last.units last.scale

/-- The sign of a number below zero. -/
def negativeSign : Nat := 0x4000

def decimal? (bytes : List UInt8) : Option Decimal := do
  let (count, bytes) ← short? bytes
  let (weight, bytes) ← short? bytes
  let (sign, bytes) ← short? bytes
  let (scale, bytes) ← short? bytes
  let groups ← groups? count bytes
  let weight : Int := if weight < 0x8000 then weight else (weight : Int) - 0x10000
  decimalOf? groups weight (sign = negativeSign) scale

/-- The cells of an array behind its dimensions; nothing may follow the last. -/
def items? : Nat → List UInt8 → Option (List (Option (List UInt8)))
  | 0, bytes => if bytes.isEmpty then some [] else none
  | n + 1, bytes => do
    let (length, rest) ← word? bytes
    if length < 0 then return none :: (← items? n rest)
    let size := length.toNat
    if rest.length < size then none
    return some (rest.take size) :: (← items? n (rest.drop size))

/-- The cells of an array of at most one dimension. -/
def array? (bytes : List UInt8) : Option (List (Option (List UInt8))) := do
  let (dimensions, bytes) ← word? bytes
  let (_, bytes) ← word? bytes
  let (_, bytes) ← word? bytes
  if dimensions = 0 then items? 0 bytes
  else if dimensions = 1 then
    let (size, bytes) ← word? bytes
    let (_, bytes) ← word? bytes
    if size < 0 then none else items? size.toNat bytes
  else none

/-- Reads a cell, or NULL where it is missing. -/
def optional? {α : Type} (read : List UInt8 → Option α) : Option (List UInt8) →
    Except Failure (Option α)
  | none => .ok none
  | some bytes =>
    match read bytes with
    | some x => .ok (some x)
    | none => .error .foreign

/-- The value of a cell of a type without elements. Of a type that is not
known, only NULL has one. -/
def scalar (oid : Nat) (raw : Option (List UInt8)) : Except Failure Value :=
  match oid with
  | 16 => (optional? boolean? raw).map .boolean
  | 18 => (optional? (int? .int8) raw).map (.int .int8)
  | 21 => (optional? (int? .int16) raw).map (.int .int16)
  | 23 => (optional? (int? .int32) raw).map (.int .int32)
  | 20 => (optional? (int? .int64) raw).map (.int .int64)
  | 26 => (optional? (int? .uint32) raw).map (.int .uint32)
  | 700 => (optional? (binary? .single) raw).map .single
  | 701 => (optional? (binary? .double) raw).map .double
  | 1700 => (optional? decimal? raw).map (.decimal · 0 0)
  | 19 | 25 | 114 | 142 | 1042 | 1043 => (optional? text? raw).map .varchar
  | 17 => .ok (.blob raw)
  | 1082 => (optional? date? raw).map .date
  | 1083 => (optional? time? raw).map .time
  | 1114 => (optional? moment? raw).map .timestamp
  | 1184 => (optional? (fun b => (moment? b).map ZonedMoment.utc) raw).map .zoned
  | 2950 => (optional? Uuid.ofBytes? raw).map .uuid
  | 705 => (optional? text? raw).map .unknown
  | oid =>
    match raw with
    | none => .ok .null
    | some bytes => .error (.undecodable (typeName oid) ((text? bytes).getD ""))

/-- The type of the elements of an array, and the NULL of its kind. -/
def element? (oid : Nat) : Option (Nat × Value) :=
  match oid with
  | 1005 => some (21, .int .int16 none)
  | 1007 => some (23, .int .int32 none)
  | 1016 => some (20, .int .int64 none)
  | 1009 => some (25, .varchar none)
  | 1015 => some (1043, .varchar none)
  | _ => none

/-- The value of a cell. -/
def value (oid : Nat) (raw : Option (List UInt8)) : Except Failure Value :=
  match element? oid with
  | none => scalar oid raw
  | some (member, prototype) =>
    match raw with
    | none => .ok (.list none prototype)
    | some bytes =>
      match array? bytes with
      | none => .error .foreign
      | some cells => do return .list (some (← cells.mapM (scalar member))) prototype

end PreparedSql.Postgres
