import PreparedSql.Proofs.ArgumentKinds
import PreparedSql.Proofs.NullPadding
import PreparedSql.Proofs.SoundCleaning

/-! Values for the places of an array. A statement reserves places for an array by its size, and
the values of everything that stands behind it follow in order; one value too many or too few would
move all of them. So an array takes exactly as many values as it has places, the items first and
then NULL of the type, or it takes none and says why. -/
namespace PreparedSql

namespace Value

/-- The value supplies the items for an array: a list its own, the NULL of a list and NULL without
a kind none. No other value supplies any. -/
inductive Supplies : Value → List Value → Prop where
  | list (items : List Value) (element : Value) : Supplies (.list (some items) element) items
  | absent (element : Value) : Supplies (.list none element) []
  | null : Supplies .null []

variable {v w x : Value}

theorem supplies_unique {items items' : List Value} (supplied : v.Supplies items)
    (supplied' : v.Supplies items') : items = items' := by
  cases supplied <;> cases supplied' <;> rfl

/-- More than one place is needed for lists alone. -/
theorem list_of_supplies {items : List Value} (supplied : v.Supplies items)
    (present : 0 < items.length) : ∃ element, v = .list (some items) element := by
  cases supplied with
  | list items element => exact ⟨element, rfl⟩
  | absent element => cases present
  | null => cases present

/-- Values of the kind of a third one are of one kind. -/
theorem sameType_of_common (first : v.sameType x = true) (second : w.sameType x = true) :
    v.sameType w = true := by
  fun_induction sameType v x generalizing w with
  | case14 _ e _ e' ih =>
    cases w with
    | list _ e'' => exact ih first second
    | _ => cases second
  | case16 => cases first
  | _ => cases w <;> simp_all [sameType]

end Value

/-! ### One array -/

namespace Param

variable {p : Param} {types : Types} {t : FieldType} {nullable : Bool} {size : Nat} {a : Argument}
  {v w : Value} {items : List Value}

theorem items_of_supplies (supplied : v.Supplies items) : p.items v = .ok items := by
  cases supplied <;> rfl

theorem items_of_unlisted (unlisted : ∀ items, ¬ v.Supplies items) :
    p.items v = .error (p.refusal v .listRequired) := by
  unfold items
  split
  · exact absurd (.list _ _) (unlisted _)
  · exact absurd (.absent _) (unlisted _)
  · exact absurd .null (unlisted _)
  · rfl

/-- What the places of an array hold: the items, cleaned, and the NULL of the type from there on;
all of one kind. -/
structure Fills (t : FieldType) (nullable : Bool) (size : Nat) (items vs : List Value) : Prop where
  places : vs.length = size
  item : ∀ (k : Nat) v, items[k]? = some v → ∃ w, t.clean v nullable = .ok w ∧ vs[k]? = some w
  padding : ∀ k, items.length ≤ k → k < size → vs[k]? = some t.valuePrototype
  kind : ∀ v ∈ vs, ∀ w ∈ vs, v.sameType w = true

/-- Cleaned items with NULL behind them are of the kind of the type. -/
theorem sameType_padded {cleaned : List Value} {n : Nat}
    (mapped : items.mapM (p.cleanOne t nullable) = .ok cleaned) :
    ∀ v ∈ cleaned ++ List.replicate n t.valuePrototype, v.sameType t.valuePrototype = true := by
  obtain ⟨length, each⟩ := Outcome.mapM_ok mapped
  intro v member
  rcases List.mem_append.mp member with front | back
  · obtain ⟨k, found⟩ := List.mem_iff_getElem?.mp front
    have inside : k < items.length := length ▸ (List.getElem?_eq_some_iff.mp found).1
    obtain ⟨w, found', one⟩ := each k _ (List.getElem?_eq_getElem inside)
    obtain rfl : v = w := Option.some.inj (found.symm.trans found')
    exact ((FieldType.clean_sound t _ nullable).1 v (cleanOne_ok.mp one)).kind
  · rw [List.eq_of_mem_replicate back]
    exact t.sameType_valuePrototype

theorem fills_padded {cleaned : List Value} (fits : items.length ≤ size)
    (mapped : items.mapM (p.cleanOne t nullable) = .ok cleaned) :
    Fills t nullable size items
      (cleaned ++ List.replicate (size - cleaned.length) t.valuePrototype) := by
  obtain ⟨length, each⟩ := Outcome.mapM_ok mapped
  have kind := sameType_padded (n := size - cleaned.length) mapped
  refine ⟨?_, fun k v known => ?_, fun k behind inside => ?_, fun v member w member' => ?_⟩
  · rw [List.length_append, List.length_replicate]
    omega
  · obtain ⟨w, found, one⟩ := each k v known
    refine ⟨w, cleanOne_ok.mp one, ?_⟩
    rw [List.getElem?_append_left (List.getElem?_eq_some_iff.mp found).1, found]
  · rw [List.getElem?_append_right (by omega), List.getElem?_replicate, if_pos (by omega)]
  · exact Value.sameType_of_common (kind v member) (kind w member')

/-! ### What comes of an argument -/

/-- What may come of a value for an array. -/
inductive ArrayOutcome (p : Param) (t : FieldType) (nullable : Bool) (size : Nat) (v : Value) :
    Except Failure (List Value) → Prop where
  /-- It supplies no items and is refused as a whole. -/
  | unlisted (unlisted : ∀ items, ¬ v.Supplies items) :
    ArrayOutcome p t nullable size v (.error (p.refusal v .listRequired))
  | exceeding {items : List Value} (supplied : v.Supplies items) (exceeds : size < items.length) :
    ArrayOutcome p t nullable size v (.error (.arraySizeExceeded p.name size items.length))
  /-- One of its items is refused. -/
  | refused {items : List Value} {w : Value} {reason : Reason} (supplied : v.Supplies items)
      (fits : items.length ≤ size) (member : w ∈ items)
      (refused : t.clean w nullable = .error reason) :
    ArrayOutcome p t nullable size v (.error (p.refusal w reason))
  | filled {items vs : List Value} (supplied : v.Supplies items) (fits : items.length ≤ size)
      (fills : Fills t nullable size items vs) : ArrayOutcome p t nullable size v (.ok vs)

/-- What a value is refused for is not the length of an argument. -/
theorem refusal_ne_exceeded (p : Param) (v : Value) (reason : Reason) (name : String)
    (limit supplied : Nat) : p.refusal v reason ≠ .arraySizeExceeded name limit supplied := by
  rcases p.refusal_cases v reason with ⟨text, same⟩ | same <;> rw [same] <;> nofun

namespace ArrayOutcome

variable {answer : Except Failure (List Value)}

/-- The length of an argument is what counts against it exactly when it is a list that is too
long. -/
theorem exceeds_iff (outcome : ArrayOutcome p t nullable size v answer) {name : String}
    {limit supplied : Nat} : answer = .error (.arraySizeExceeded name limit supplied) ↔
      (name = p.name ∧ limit = size) ∧ ∃ items element, v = .list (some items) element ∧
        items.length = supplied ∧ size < supplied := by
  have short {items : List Value} (given : v.Supplies items) (fits : items.length ≤ size) :
      ¬ ∃ items element, v = .list (some items) element ∧ items.length = supplied ∧
        size < supplied := by
    rintro ⟨items', element, rfl, rfl, exceeds⟩
    obtain rfl := Value.supplies_unique given (.list items' element)
    omega
  cases outcome with
  | unlisted unlisted =>
    refine ⟨fun same => absurd (Except.error.inj same) (refusal_ne_exceeded p _ _ _ _ _), ?_⟩
    rintro ⟨_, items, element, rfl, _⟩
    exact absurd (.list items element) (unlisted items)
  | @exceeding items given exceeds =>
    obtain ⟨element, rfl⟩ := Value.list_of_supplies given (Nat.zero_lt_of_lt exceeds)
    constructor
    · rintro ⟨⟩
      exact ⟨⟨rfl, rfl⟩, items, element, rfl, rfl, exceeds⟩
    · rintro ⟨⟨rfl, rfl⟩, _, _, ⟨⟩, rfl, _⟩
      rfl
  | refused given fits _ _ =>
    exact ⟨fun same => absurd (Except.error.inj same) (refusal_ne_exceeded p _ _ _ _ _),
      fun ⟨_, long⟩ => absurd long (short given fits)⟩
  | filled given fits _ => exact ⟨nofun, fun ⟨_, long⟩ => absurd long (short given fits)⟩

/-- Something else counts against an argument exactly when it supplies no items, or when one of
them is not cleaned. -/
theorem refuses_iff (outcome : ArrayOutcome p t nullable size v answer) :
    (∃ failure, answer = .error failure ∧
        ∀ name limit supplied, failure ≠ .arraySizeExceeded name limit supplied) ↔
      (∀ items, ¬ v.Supplies items) ∨ ∃ items, v.Supplies items ∧ items.length ≤ size ∧
        ∃ w ∈ items, ∃ reason, t.clean w nullable = .error reason := by
  cases outcome with
  | unlisted unlisted =>
    exact ⟨fun _ => .inl unlisted, fun _ => ⟨_, rfl, refusal_ne_exceeded p v .listRequired⟩⟩
  | exceeding given exceeds =>
    constructor
    · rintro ⟨_, ⟨⟩, other⟩
      exact absurd rfl (other _ _ _)
    · rintro (unlisted | ⟨_, given', fits, _⟩)
      · exact absurd given (unlisted _)
      · obtain rfl := Value.supplies_unique given given'
        omega
  | refused given fits member refused =>
    exact ⟨fun _ => .inr ⟨_, given, fits, _, member, _, refused⟩,
      fun _ => ⟨_, rfl, refusal_ne_exceeded p _ _⟩⟩
  | filled given fits fills =>
    constructor
    · rintro ⟨_, ⟨⟩, _⟩
    · rintro (unlisted | ⟨_, given', _, w, member, reason, refused⟩)
      · exact absurd given (unlisted _)
      · obtain rfl := Value.supplies_unique given given'
        obtain ⟨k, known⟩ := List.mem_iff_getElem?.mp member
        obtain ⟨_, cleaned, _⟩ := fills.item k w known
        rw [refused] at cleaned
        cases cleaned

end ArrayOutcome

section
variable (sized : p.size = some size) (typed : types.fieldType? p = some t)
include sized typed

/-- A value without items for an array is refused as a whole. -/
theorem clean_unlisted (unlisted : ∀ items, ¬ a.carried.Supplies items) :
    p.clean types a = .error (p.refusal a.carried .listRequired) := by
  simp only [clean, typed, sized, items_of_unlisted unlisted]
  rfl

/-- The length of a list is looked at before its items are. -/
theorem clean_exceeding (supplied : a.carried.Supplies items) (exceeds : size < items.length) :
    p.clean types a = .error (.arraySizeExceeded p.name size items.length) := by
  simp only [clean, typed, sized, items_of_supplies supplied, bind, Except.bind, if_pos exceeds]
  rfl

theorem clean_fitting (supplied : a.carried.Supplies items) (fits : items.length ≤ size) :
    p.clean types a = (items.mapM (p.cleanOne t (types.isNullable p))).map fun cleaned =>
      cleaned ++ List.replicate (size - cleaned.length) t.valuePrototype := by
  have within : ¬ size < items.length := Nat.not_lt.mpr fits
  simp only [clean, typed, sized, items_of_supplies supplied, bind, Except.bind, if_neg within]
  cases items.mapM (p.cleanOne t (types.isNullable p)) <;> rfl

/-- An argument for an array comes to one of its outcomes. -/
theorem clean_outcome (a : Argument) :
    ArrayOutcome p t (types.isNullable p) size a.carried (p.clean types a) := by
  by_cases listed : ∃ items, a.carried.Supplies items
  · obtain ⟨items, supplied⟩ := listed
    rcases Nat.lt_or_ge size items.length with exceeds | fits
    · rw [clean_exceeding sized typed supplied exceeds]
      exact .exceeding supplied exceeds
    · rw [clean_fitting sized typed supplied fits]
      cases mapped : items.mapM (p.cleanOne t (types.isNullable p)) with
      | error failure =>
        obtain ⟨v, member, one⟩ := Outcome.mapM_error mapped
        obtain ⟨reason, refused, rfl⟩ := cleanOne_error.mp one
        exact .refused supplied fits member refused
      | ok cleaned => exact .filled supplied fits (fills_padded fits mapped)
  · have unlisted := not_exists.mp listed
    rw [clean_unlisted sized typed unlisted]
    exact .unlisted unlisted

/-- Whatever argument is given for an array, it is refused for its length exactly when it is a list
longer than the array, whatever the items are. Any other argument is refused exactly when it is
neither a list nor NULL or when one of its items is not cleaned; and otherwise there is a value for
each place and none besides, the items first and NULL behind them. -/
theorem array_takes (a : Argument) :
    (∀ name limit supplied, p.clean types a = .error (.arraySizeExceeded name limit supplied) ↔
      (name = p.name ∧ limit = size) ∧ ∃ items element, a.carried = .list (some items) element ∧
        items.length = supplied ∧ size < supplied) ∧
    (∀ vs, p.clean types a = .ok vs → ∃ items, a.carried.Supplies items ∧
      Fills t (types.isNullable p) size items vs) ∧
    ((∃ failure, p.clean types a = .error failure ∧
        ∀ name limit supplied, failure ≠ .arraySizeExceeded name limit supplied) ↔
      (∀ items, ¬ a.carried.Supplies items) ∨
        ∃ items, a.carried.Supplies items ∧ items.length ≤ size ∧
          ∃ v ∈ items, ∃ reason, t.clean v (types.isNullable p) = .error reason) := by
  have outcome := clean_outcome sized typed a
  generalize p.clean types a = answer at outcome
  refine ⟨fun name limit supplied => ?_, ?_, ?_⟩
  · exact outcome.exceeds_iff
  · rintro vs rfl
    cases outcome with
    | filled supplied _ fills => exact ⟨_, supplied, fills⟩
  · exact outcome.refuses_iff

end

open PreparedSql.Expr (twoKeys twoKeyTypes keyValue)

/-- Three items are too many for two keys, although one of them is no key; a single one is followed
by NULL. -/
theorem twoKeys_take :
    twoKeys.clean twoKeyTypes (.value (.list (some [keyValue 1, .varchar (some "two"), .null])
        (.int .int32 none))) = .error (.arraySizeExceeded "keys" 2 3) ∧
      Fills .integer false 2 [keyValue 1] [keyValue 1, .int .int32 none] := by
  have sized : twoKeys.size = some 2 := rfl
  have typed : twoKeyTypes.fieldType? twoKeys = some .integer := rfl
  constructor
  · exact ((array_takes sized typed _).1 "keys" 2 3).mpr ⟨⟨rfl, rfl⟩, _, _, rfl, rfl, by decide⟩
  · obtain ⟨items, supplied, fills⟩ :=
      (array_takes sized typed (.value (.list (some [keyValue 1]) (.int .int32 none)))).2.1
        [keyValue 1, .int .int32 none] rfl
    obtain rfl := Value.supplies_unique supplied (.list [keyValue 1] _)
    exact fills

end Param

end PreparedSql
