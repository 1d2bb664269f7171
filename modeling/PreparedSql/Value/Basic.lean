import PreparedSql.Calendar.Moment
import PreparedSql.Number.Binary
import PreparedSql.Number.Decimal
import PreparedSql.Number.Integer
import PreparedSql.Uuid

/-! Values exchanged with a database. Every kind of value has a NULL of its
own, which also serves as the description of the kind. -/
namespace PreparedSql

/-- A value, or the NULL of its kind. -/
inductive Value where
  | null
  | boolean (v : Option Bool)
  | int (k : IntKind) (v : Option (Ranged k))
  | single (v : Option Single)
  | double (v : Option Double)
  | decimal (v : Option Decimal) (precision scale : Nat)
  | varchar (v : Option String)
  | blob (v : Option (List UInt8))
  | date (v : Option Date)
  | time (v : Option TimeOfDay)
  | timestamp (v : Option Moment)
  | zoned (v : Option ZonedMoment)
  | uuid (v : Option Uuid)
  | list (items : Option (List Value)) (element : Value)
  /-- Text from the wire whose kind is not known yet. -/
  | unknown (v : Option String)

namespace Value

instance : Inhabited Value := ⟨null⟩

/-- NULL of any kind. -/
def isNull : Value → Bool
  | null => true
  | boolean v => v.isNone
  | int _ v => v.isNone
  | single v => v.isNone
  | double v => v.isNone
  | decimal v _ _ => v.isNone
  | varchar v | unknown v => v.isNone
  | blob v => v.isNone
  | date v => v.isNone
  | time v => v.isNone
  | timestamp v => v.isNone
  | zoned v => v.isNone
  | uuid v => v.isNone
  | list items _ => items.isNone

/-- Two values of one kind: decimals need the same precision and scale, lists
elements of one kind. -/
def sameType : Value → Value → Bool
  | null, null => true
  | boolean _, boolean _ => true
  | int k _, int k' _ => k == k'
  | single _, single _ => true
  | double _, double _ => true
  | decimal _ p s, decimal _ p' s' => p == p' && s == s'
  | varchar _, varchar _ => true
  | blob _, blob _ => true
  | date _, date _ => true
  | time _, time _ => true
  | timestamp _, timestamp _ => true
  | zoned _, zoned _ => true
  | uuid _, uuid _ => true
  | list _ e, list _ e' => sameType e e'
  | unknown _, unknown _ => true
  | _, _ => false

/-- The NULL of the kind. -/
def prototype : Value → Value
  | null => null
  | boolean _ => boolean none
  | int k _ => int k none
  | single _ => single none
  | double _ => double none
  | decimal _ p s => decimal none p s
  | varchar _ => varchar none
  | blob _ => blob none
  | date _ => date none
  | time _ => time none
  | timestamp _ => timestamp none
  | zoned _ => zoned none
  | uuid _ => uuid none
  | list _ e => list none e
  | unknown _ => unknown none

/-- Both absent, or both present and related. -/
def bothOr {α : Type} (related : α → α → Bool) : Option α → Option α → Bool
  | none, none => true
  | some a, some b => related a b
  | _, _ => false

mutual

/-- Equality of values of one kind. Numbers compare by value and moments with
an offset as instants; NaN differs from itself. -/
def equals : Value → Value → Bool
  | null, null => true
  | boolean a, boolean b => a == b
  | int k a, int k' b => k == k' && a.map Ranged.value == b.map Ranged.value
  | single a, single b => bothOr Binary.equals a b
  | double a, double b => bothOr Binary.equals a b
  | decimal a p s, decimal b p' s' => bothOr Decimal.equals a b && p == p' && s == s'
  | varchar a, varchar b => a == b
  | blob a, blob b => a == b
  | date a, date b => a == b
  | time a, time b => a == b
  | timestamp a, timestamp b => a == b
  | zoned a, zoned b => bothOr ZonedMoment.sameInstant a b
  | uuid a, uuid b => a == b
  | list none e, list none e' => sameType e e'
  | list (some a) e, list (some b) e' => equalItems a b && sameType e e'
  | unknown a, unknown b => a == b
  | _, _ => false

/-- Lists of the same length with equal items. -/
def equalItems : List Value → List Value → Bool
  | [], [] => true
  | a :: as, b :: bs => equals a b && equalItems as bs
  | _, _ => false

end

instance : BEq Value := ⟨equals⟩

end Value

end PreparedSql
