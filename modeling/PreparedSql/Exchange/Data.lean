import PreparedSql.Named

/-! Plain data: texts, whole numbers, truth values, lists and records, in which
programs exchange what this library works on. -/
namespace PreparedSql

/-- Plain data. A record lists its members in the order of their names. -/
inductive Data where
  | null
  | truth (b : Bool)
  | number (n : Int)
  | text (s : String)
  | list (items : List Data)
  | record (members : List (String × Data))
  deriving Inhabited

/-- Types whose members are written as plain data. -/
class ToData (α : Type) where
  toData : α → Data

/-- Types whose members are written as several items of a list. -/
class ToItems (α : Type) where
  toItems : α → List Data

/-- Types whose members are read from plain data. -/
class OfData (α : Type) where
  ofData? : Data → Option α

/-- Types whose members are read from all items of a list. -/
class OfItems (α : Type) where
  ofItems? : List Data → Option α

export ToData (toData)
export OfData (ofData?)

namespace Data

/-- The member with a name, when there is one. -/
def member? (d : Data) (name : String) : Option Data :=
  match d with
  | record members => members.lookup name
  | _ => none

/-- The member with a name; null when there is none. -/
def member (d : Data) (name : String) : Data :=
  (d.member? name).getD null

/-- A member of a record, read. -/
def get? {α : Type} [OfData α] (d : Data) (name : String) : Option α :=
  ofData? (d.member name)

/-- A member of a record, read; where it is null, something else. -/
def getD? {α : Type} [OfData α] (d : Data) (name : String) (otherwise : α) : Option α :=
  match d.member name with
  | null => some otherwise
  | d => ofData? d

/-- A truth value among the members; false where it is missing. -/
def flag? (d : Data) (name : String) : Option Bool :=
  match d.member name with
  | null => some false
  | truth b => some b
  | _ => none

/-- A record of one member, which tells the kind of what it holds. -/
def tagged {α : Type} [ToData α] (tag : String) (x : α) : Data :=
  record [(tag, toData x)]

end Data

section

variable {α β : Type}

instance : ToData Data := ⟨id⟩

instance : OfData Data := ⟨some⟩

instance : ToData Unit := ⟨fun _ => .null⟩

instance : ToData Bool := ⟨.truth⟩

instance : OfData Bool where
  ofData?
    | .truth b => some b
    | _ => none

instance : ToData Int := ⟨.number⟩

/-- A whole number may also be given by its digits. -/
instance : OfData Int where
  ofData?
    | .number n => some n
    | .text s => s.toInt?
    | _ => none

instance : ToData Nat := ⟨fun n => .number n⟩

instance : OfData Nat := ⟨fun d => (ofData? d : Option Int).map Int.toNat⟩

instance : ToData String := ⟨.text⟩

instance : OfData String where
  ofData?
    | .text s => some s
    | _ => none

instance [ToData α] : ToData (Option α) where
  toData
    | some x => toData x
    | none => .null

instance [OfData α] : OfData (Option α) where
  ofData?
    | .null => some none
    | d => (ofData? d).map some

instance [ToData α] : ToData (List α) := ⟨fun xs => .list (xs.map toData)⟩

instance [OfData α] : OfData (List α) where
  ofData?
    | .list items => items.mapM ofData?
    | _ => none

instance (priority := low) [ToData α] : ToItems α := ⟨fun x => [toData x]⟩

instance (priority := low) [OfData α] : OfItems α where
  ofItems?
    | [d] => ofData? d
    | _ => none

instance [ToData α] [ToItems β] : ToItems (α × β) where
  toItems := fun (x, y) => toData x :: ToItems.toItems y

instance [OfData α] [OfItems β] : OfItems (α × β) where
  ofItems?
    | d :: rest => do return (← ofData? d, ← OfItems.ofItems? rest)
    | [] => none

instance [ToData α] [ToItems β] : ToData (α × β) := ⟨fun x => .list (ToItems.toItems x)⟩

instance [OfData α] [OfItems β] : OfData (α × β) where
  ofData?
    | .list items => OfItems.ofItems? items
    | _ => none

/-- Named things are a record. -/
instance [OfData α] : OfData (Named α) where
  ofData?
    | .record members => do
      return Named.ofList (← members.mapM fun (name, d) => do return (name, ← ofData? d))
    | .null => some {}
    | _ => none

end

end PreparedSql
