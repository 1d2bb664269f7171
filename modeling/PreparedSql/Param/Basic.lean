import PreparedSql.Schema.FieldType
import PreparedSql.Text.Printable

/-! Bind parameters: places in a query whose values are supplied when it is
executed. A parameter is known by its token. What is known of its type lies in
a cell beside it, which the first finding fills for good. -/
namespace PreparedSql

structure Param where
  /-- Tells the parameter from every other one. -/
  token : String
  name : String
  /-- The places that an array reserves; a scalar has none. -/
  size : Option Nat
  positive : ∀ n ∈ size, 0 < n
  deriving DecidableEq

namespace Param

def scalar (token name : String) : Param :=
  ⟨token, name, none, by simp⟩

/-- An array reserves at least one place. -/
def array (token name : String) (size : Nat) : Param :=
  ⟨token, name, some (max size 1), by
    rintro n ⟨⟩
    exact Nat.lt_of_lt_of_le Nat.one_pos (Nat.le_max_right size 1)⟩

def isArray (p : Param) : Bool :=
  p.size.isSome

/-- Placeholders in a statement. -/
def slots (p : Param) : Nat :=
  p.size.getD 1

theorem slots_pos (p : Param) : 0 < p.slots := by
  unfold slots
  match h : p.size with
  | none => simp
  | some n => exact p.positive n (by simp [h])

theorem slots_of_scalar {p : Param} (scalar : p.isArray = false) : p.slots = 1 := by
  rw [isArray, Option.isSome_eq_false_iff, Option.isNone_iff_eq_none] at scalar
  rw [slots, scalar, Option.getD_none]

end Param

/-- What is known of a parameter. -/
structure Typing where
  fieldType : Option FieldType := none
  nullable : Option Bool := none
  deriving DecidableEq, Repr, Inhabited

/-- What is known of every parameter, by token. -/
structure Types where
  cell : String → Typing

namespace Types

def empty : Types := ⟨fun _ => {}⟩

/-- Replaces what is known of one parameter. -/
def set (ts : Types) (token : String) (typing : Typing) : Types :=
  ⟨fun t => if t = token then typing else ts.cell t⟩

def fieldType? (ts : Types) (p : Param) : Option FieldType :=
  (ts.cell p.token).fieldType

/-- NULL is accepted only where something said so. -/
def isNullable (ts : Types) (p : Param) : Bool :=
  (ts.cell p.token).nullable.getD false

/-- Settles the type, unless it is settled. -/
def inferType (ts : Types) (p : Param) (t : FieldType) : Types :=
  let typing := ts.cell p.token
  if typing.fieldType.isSome then ts else ts.set p.token { typing with fieldType := some t }

/-- Settles whether NULL is accepted, unless it is settled. -/
def inferNullable (ts : Types) (p : Param) (nullable : Bool) : Types :=
  let typing := ts.cell p.token
  if typing.nullable.isSome then ts else ts.set p.token { typing with nullable := some nullable }

/-- A parameter and what is known of it, as messages show them. -/
def inspect (ts : Types) (p : Param) : String :=
  let present (s : Option String) : String := match s with
    | none => "None"
    | some s => "Some(" ++ s ++ ")"
  "BindParam \x7b name: " ++ Text.quoted p.name ++ ", token: " ++ Text.quoted p.token
    ++ ", size: " ++ present (p.size.map toString)
    ++ ", field_type: " ++ present ((ts.fieldType? p).map FieldType.inspect)
    ++ ", nullable: " ++ (if ts.isNullable p then "true" else "false") ++ " \x7d"

@[simp] theorem cell_set_self (ts : Types) (token : String) (typing : Typing) :
    (ts.set token typing).cell token = typing := by
  simp [set]

theorem cell_set_of_ne (ts : Types) {token other : String} (typing : Typing)
    (differ : other ≠ token) : (ts.set token typing).cell other = ts.cell other := by
  simp [set, differ]

end Types

/-- An end of a slice: a row number, or a parameter that supplies one. -/
inductive Bound where
  | row (n : Nat)
  | param (p : Param)
  deriving DecidableEq

namespace Bound

/-- Row numbers stop here. -/
def greatestRow : Nat := Nat.pow 2 64 - 1

def zero : Bound := row 0

/-- A number below zero is the first row. -/
def ofInt (n : Int) : Bound := row n.toNat

def isZero : Bound → Bool
  | row n => n == 0
  | param _ => false

def isParam : Bound → Bool
  | row _ => false
  | param _ => true

/-- The same row number or the same parameter. -/
def same : Bound → Bound → Bool
  | row a, row b => a == b
  | param p, param q => p.token == q.token
  | _, _ => false

end Bound

end PreparedSql
