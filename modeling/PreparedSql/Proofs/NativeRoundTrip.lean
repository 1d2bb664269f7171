import PreparedSql.Native.OfValue
import PreparedSql.Proofs.ActionRuns

/-! Members of types survive as values. Whatever is put together from numbers that are kept exactly,
texts, days, times and identifiers, as lists and as members that may be missing, is read back from its
value as it was. A missing member is stored as the NULL that describes its type, so it has to be told
apart from everything that is not missing: an empty list is no NULL, and a list is as long with missing
items as without. Only a missing member of what may be missing itself would be lost. -/
namespace PreparedSql

namespace Value

/-- The value has the type that the prototype describes. A decimal has its own scale. -/
def HasType (v prototype : Value) : Prop :=
  v.sameType prototype = true ∨
    ∃ d : Decimal, v = .decimal (some d) 0 d.scale ∧ prototype = .decimal none 0 0

/-- The value stands in another one, as all of it or at some level of its lists. -/
inductive Within (w : Value) : Value → Prop where
  | whole : Within w w
  | item {v element : Value} {items : List Value} (member : v ∈ items) (within : Within w v) :
      Within w (.list (some items) element)

end Value

namespace Native

open Value (Within)

variable {t : Native}

/-- The type keeps its members as values: numbers are exact, texts are owned, and nowhere is what may
be missing a member that may be missing. -/
def keepsMembers : Native → Bool
  | single | double | borrowedText => false
  | optional t => !t.isOptional && keepsMembers t
  | sequence t => keepsMembers t
  | _ => true

theorem keepsMembers_optional (kept : keepsMembers (optional t) = true) :
    t.isOptional = false ∧ t.keepsMembers = true := by
  rwa [keepsMembers, Bool.and_eq_true, Bool.not_eq_true'] at kept

/-! ### Missing members -/

/-- The member is missing. -/
def isMissing : (t : Native) → t.Carrier → Bool
  | optional _, none => true
  | _, _ => false

/-- Whatever its members are, a type that has none missing stores none of them as a NULL. -/
theorem isNull_toValue_plain (plain : t.isOptional = false) (x : t.Carrier) :
    (toValue t x).isNull = false := by
  cases t with
  | optional t => cases plain
  | _ => rfl

/-- What is stored as a NULL is what is missing. -/
theorem isNull_toValue (kept : t.keepsMembers = true) (x : t.Carrier) :
    (toValue t x).isNull = isMissing t x := by
  cases t with
  | optional t =>
    cases x with
    | none => exact isNull_emptyValue t
    | some x => exact isNull_toValue_plain (keepsMembers_optional kept).1 x
  | _ => rfl

/-! ### Types of values -/

theorem sameType_emptyValue (t : Native) : t.emptyValue.sameType t.emptyValue = true := by
  induction t with
  | optional t ih => exact ih
  | sequence t ih => exact ih
  | int k => exact beq_self_eq_true k
  | _ => rfl

theorem hasType_toValue (t : Native) (x : t.Carrier) : (toValue t x).HasType t.emptyValue := by
  induction t with
  | decimal => exact .inr ⟨x, rfl, rfl⟩
  | optional t ih =>
    cases x with
    | none => exact .inl (sameType_emptyValue t)
    | some x => exact ih x
  | sequence t => exact .inl (sameType_emptyValue t)
  | int k => exact .inl (beq_self_eq_true k)
  | _ => exact .inl rfl

/-! ### Reading back -/

theorem ofValue_toValue (kept : t.keepsMembers = true) (x : t.Carrier) :
    ofValue t (toValue t x) = .ok x := by
  induction t with
  | int k => exact ofValue_int rfl
  | optional t ih =>
    obtain ⟨plain, kept⟩ := keepsMembers_optional kept
    cases x with
    | none =>
      show (if t.emptyValue.isNull then _ else _) = _
      rw [isNull_emptyValue, if_pos rfl]
    | some x =>
      show (if (toValue t x).isNull then _ else (ofValue t (toValue t x)).map some) = _
      rw [isNull_toValue_plain plain, if_neg Bool.false_ne_true, ih kept]
      rfl
  | sequence t ih =>
    show (x.map (toValue t)).mapM (ofValue t) = .ok x
    have each : ∀ y ∈ x, (ofValue t ∘ toValue t) y = .ok (id y) := fun y _ => ih kept y
    rw [List.mapM_map, Outcome.mapM_each each, List.map_id]
  | single | double | borrowedText => cases kept
  | _ => rfl

/-! ### Levels -/

/-- A member stands in another one, as all of it or at some level of its lists. -/
inductive Level {u : Native} (y : u.Carrier) : (t : Native) → t.Carrier → Prop where
  | whole : Level y u y
  | there {t : Native} {x : t.Carrier} (level : Level y t x) : Level y (optional t) (some x)
  | item {t : Native} {x : t.Carrier} {xs : List t.Carrier} (member : x ∈ xs) (level : Level y t x) :
      Level y (sequence t) xs

/-- What stands in a member is stored in the value of the member, and its type keeps members too. -/
theorem within_of_level {u : Native} {y : u.Carrier} {x : t.Carrier} (level : Level y t x)
    (kept : t.keepsMembers = true) :
    Within (toValue u y) (toValue t x) ∧ u.keepsMembers = true := by
  induction level with
  | whole => exact ⟨.whole, kept⟩
  | there _ ih => exact ih (keepsMembers_optional kept).2
  | item member _ ih =>
    obtain ⟨within, kept⟩ := ih kept
    exact ⟨.item (List.mem_map_of_mem member) within, kept⟩

/-- Members survive as values. They are read back as they were, so that no two of them share a value.
Their values have the type that stands for their type. And at every level, what is stored as a NULL is
what is missing, so that a missing list is never an empty one. -/
theorem members_survive (kept : t.keepsMembers = true) :
    (∀ x, ofValue t (toValue t x) = .ok x) ∧
    (∀ x y, toValue t x = toValue t y → x = y) ∧
    (∀ x, (toValue t x).HasType t.emptyValue) ∧
    ∀ (x : t.Carrier) (u : Native) (y : u.Carrier), Level y t x →
      Within (toValue u y) (toValue t x) ∧ (toValue u y).HasType u.emptyValue ∧
        (toValue u y).isNull = isMissing u y := by
  refine ⟨ofValue_toValue kept, fun x y same => ?_, hasType_toValue t, fun x u y level => ?_⟩
  · have back := ofValue_toValue kept x
    rw [same, ofValue_toValue kept] at back
    exact (Except.ok.inj back).symm
  · obtain ⟨within, kept⟩ := within_of_level level kept
    exact ⟨within, hasType_toValue u y, isNull_toValue kept y⟩

/-- A list of lists that may be missing, one of them missing and one empty, inside what may be missing
itself. -/
theorem missing_and_empty_survive :
    let t := optional (sequence (optional (sequence boolean)))
    let x : t.Carrier := some [none, some [], some [true]]
    t.keepsMembers = true ∧ ofValue t (toValue t x) = .ok x ∧
      toValue t x ≠ toValue t (some [some [], none, some [true]]) ∧
      (toValue (optional (sequence boolean)) none).isNull = true ∧
      (toValue (optional (sequence boolean)) (some [])).isNull = false := by
  intro t x
  have kept : t.keepsMembers = true := rfl
  obtain ⟨back, apart, -, levels⟩ := members_survive kept
  obtain ⟨-, -, missing⟩ :=
    levels x (optional (sequence boolean)) none (.there (.item (.head _) .whole))
  obtain ⟨-, -, empty⟩ :=
    levels x (optional (sequence boolean)) (some []) (.there (.item (.tail _ (.head _)) .whole))
  have swapped : (some [none, some [], some [true]] : Option (List (Option (List Bool)))) ≠
      some [some [], none, some [true]] := by decide
  exact ⟨kept, back x, fun same => swapped (apart x _ same), missing, empty⟩

end Native

end PreparedSql
