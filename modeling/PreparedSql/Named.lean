/-! Things under names. -/
namespace PreparedSql

/-- Things under names, each name once. -/
structure Named (α : Type) where
  entries : List (String × α) := []

namespace Named

variable {α : Type}

def get? (n : Named α) (name : String) : Option α :=
  (n.entries.find? (·.1 == name)).map (·.2)

def contains (n : Named α) (name : String) : Bool :=
  (n.get? name).isSome

def names (n : Named α) : List String :=
  n.entries.map (·.1)

def size (n : Named α) : Nat :=
  n.entries.length

/-- Forgets a name. -/
def erase (n : Named α) (name : String) : Named α :=
  ⟨n.entries.filter (·.1 != name)⟩

/-- Puts something under a name, in the place of what is there. -/
def put (n : Named α) (name : String) (x : α) : Named α :=
  ⟨(n.erase name).entries ++ [(name, x)]⟩

/-- The things of a list of pairs; the later of two with one name counts. -/
def ofList (pairs : List (String × α)) : Named α :=
  pairs.foldl (fun n (name, x) => n.put name x) {}

theorem get?_erase_self (n : Named α) (name : String) : (n.erase name).get? name = none := by
  simp [get?, erase, List.find?_filter]

theorem get?_erase_of_ne (n : Named α) {name other : String} (differ : other ≠ name) :
    (n.erase name).get? other = n.get? other := by
  have same : (fun e : String × α => decide ((e.1 != name) = true ∧ (e.1 == other) = true)) =
      fun e => e.1 == other := by
    funext e
    by_cases h : e.1 = other <;> simp [h, differ]
  simp only [get?, erase, List.find?_filter, same]

@[simp] theorem get?_put_self (n : Named α) (name : String) (x : α) :
    (n.put name x).get? name = some x := by
  have gone := n.get?_erase_self name
  simp only [get?, Option.map_eq_none_iff] at gone
  simp [get?, put, List.find?_append, gone]

theorem get?_put_of_ne (n : Named α) {name other : String} (x : α) (differ : other ≠ name) :
    (n.put name x).get? other = n.get? other := by
  have kept := n.get?_erase_of_ne differ
  have foreign : ¬ name = other := Ne.symm differ
  simp only [get?] at kept
  simp [get?, put, List.find?_append, foreign, kept]

end Named

end PreparedSql
