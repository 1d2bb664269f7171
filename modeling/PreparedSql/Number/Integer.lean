/-! Whole numbers of a fixed width, with or without sign. -/
namespace PreparedSql

/-- The widths a whole number may have. -/
inductive IntKind where
  | int8 | int16 | int32 | int64
  | uint8 | uint16 | uint32 | uint64
  deriving DecidableEq, Repr

namespace IntKind

def isSigned : IntKind → Bool
  | .int8 | .int16 | .int32 | .int64 => true
  | .uint8 | .uint16 | .uint32 | .uint64 => false

/-- Bits of the binary form, the sign included. -/
def width : IntKind → Nat
  | .int8 | .uint8 => 8
  | .int16 | .uint16 => 16
  | .int32 | .uint32 => 32
  | .int64 | .uint64 => 64

def least (k : IntKind) : Int :=
  if k.isSigned then -(Nat.pow 2 (k.width - 1)) else 0

def greatest (k : IntKind) : Int :=
  if k.isSigned then Nat.pow 2 (k.width - 1) - 1 else Nat.pow 2 k.width - 1

theorem least_nonpos (k : IntKind) : k.least ≤ 0 := by
  cases k <;> decide

theorem greatest_nonneg (k : IntKind) : 0 ≤ k.greatest := by
  cases k <;> decide

end IntKind

/-- A whole number that fits the kind. -/
structure Ranged (k : IntKind) where
  value : Int
  inRange : k.least ≤ value ∧ value ≤ k.greatest
  deriving DecidableEq

namespace Ranged

/-- The number as a member of the kind, when it fits. -/
def ofInt? (k : IntKind) (n : Int) : Option (Ranged k) :=
  if h : k.least ≤ n ∧ n ≤ k.greatest then some ⟨n, h⟩ else none

theorem ofInt?_eq_some_iff {k : IntKind} {n : Int} {r : Ranged k} :
    ofInt? k n = some r ↔ r.value = n := by
  unfold ofInt?
  split
  · simp only [Option.some.injEq]
    constructor
    · rintro rfl; rfl
    · intro same; cases r; subst same; rfl
  next out =>
    constructor
    · intro none_some; cases none_some
    · rintro rfl; exact absurd r.inRange out

/-- The member of the kind nearest to the number. -/
def clamp (k : IntKind) (n : Int) : Ranged k :=
  ⟨max k.least (min n k.greatest), by
    have := k.least_nonpos; have := k.greatest_nonneg; omega⟩

end Ranged

end PreparedSql
