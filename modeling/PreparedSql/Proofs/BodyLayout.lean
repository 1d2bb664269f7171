import PreparedSql.Prepared.Artifact
import PreparedSql.Proofs.TemplateFilling

/-! What the writing of a body does to its layout, hole by hole. Slots and
positions are only appended, the slots of a parameter are opened once and lie
one after the other, and every placeholder belongs to the slot that the source
of its hole feeds. -/
namespace PreparedSql.Prepared

/-! ### Runs of a filling -/

/-- From the layout `l` the filling answers `x` and leaves the layout `l'`. -/
def Yields {α : Type} (f : Filling α) (l : Layout) (x : α) (l' : Layout) : Prop :=
  f.run.run l = (.ok x, l')

section
variable {α β : Type} {x : α} {y : β} {l l' : Layout} {f : Filling α} {g : α → Filling β}

theorem yields_pure {x' : α} : Yields (pure x) l x' l' ↔ x = x' ∧ l = l' := by
  constructor
  · intro run
    cases run
    exact ⟨rfl, rfl⟩
  · rintro ⟨rfl, rfl⟩
    rfl

theorem yields_get {l₀ : Layout} : Yields (get : Filling Layout) l l₀ l' ↔ l = l₀ ∧ l = l' := by
  constructor
  · intro run
    cases run
    exact ⟨rfl, rfl⟩
  · rintro ⟨rfl, rfl⟩
    rfl

theorem yields_modify {change : Layout → Layout} {u : PUnit} :
    Yields (modify change : Filling PUnit) l u l' ↔ change l = l' := by
  constructor
  · intro run
    cases run
    rfl
  · rintro rfl
    rfl

theorem yields_set {new : Layout} {u : PUnit} :
    Yields (set new : Filling PUnit) l u l' ↔ new = l' := by
  constructor
  · intro run
    cases run
    rfl
  · rintro rfl
    rfl

theorem yields_ofExcept {outcome : Except Failure α} :
    Yields (MonadExcept.ofExcept outcome : Filling α) l x l' ↔ outcome = .ok x ∧ l = l' := by
  cases outcome with
  | error failure =>
    constructor
    · intro run
      cases run
    · rintro ⟨none, _⟩
      cases none
  | ok x' =>
    constructor
    · intro run
      cases run
      exact ⟨rfl, rfl⟩
    · rintro ⟨same, rfl⟩
      cases same
      rfl

theorem not_yields_throw {failure : Failure} : ¬ Yields (throw failure : Filling α) l x l' := by
  intro run
  cases run

theorem run_bind (f : Filling α) (g : α → Filling β) (l : Layout) :
    (f >>= g).run.run l = match f.run.run l with
      | (.ok x, middle) => (g x).run.run middle
      | (.error failure, middle) => (.error failure, middle) := by
  simp only [ExceptT.run_bind, StateT.run_bind]
  rcases f.run.run l with ⟨outcome | outcome, middle⟩ <;> rfl

theorem yields_bind :
    Yields (f >>= g) l y l' ↔ ∃ x middle, Yields f l x middle ∧ Yields (g x) middle y l' := by
  unfold Yields
  rw [run_bind]
  rcases f.run.run l with ⟨failure | x, middle⟩
  · constructor
    · intro run
      cases run
    · rintro ⟨_, _, same, _⟩
      cases same
  · constructor
    · intro run
      exact ⟨x, middle, rfl, run⟩
    · rintro ⟨_, _, same, run⟩
      cases same
      exact run

end

/-! ### The steps -/

section
variable {v : Vendor} {types : Types} {params : Registry}

@[simp] theorem slots_met (l : Layout) (p : Param) : (l.met p).slots = l.slots := by
  unfold Layout.met
  split <;> rfl

@[simp] theorem bases_met (l : Layout) (p : Param) : (l.met p).bases = l.bases := by
  unfold Layout.met
  split <;> rfl

@[simp] theorem positions_met (l : Layout) (p : Param) : (l.met p).positions = l.positions := by
  unfold Layout.met
  split <;> rfl

@[simp] theorem slots_metBound (l : Layout) (b : Bound) : (l.metBound b).slots = l.slots := by
  cases b <;> simp [Layout.metBound]

@[simp] theorem bases_metBound (l : Layout) (b : Bound) : (l.metBound b).bases = l.bases := by
  cases b <;> simp [Layout.metBound]

@[simp] theorem positions_metBound (l : Layout) (b : Bound) :
    (l.metBound b).positions = l.positions := by
  cases b <;> simp [Layout.metBound]

@[simp] theorem slots_used (l : Layout) (v : Vendor) (slot : Nat) :
    (l.used v slot).slots = l.slots := by
  unfold Layout.used
  split <;> rfl

@[simp] theorem bases_used (l : Layout) (v : Vendor) (slot : Nat) :
    (l.used v slot).bases = l.bases := by
  unfold Layout.used
  split <;> rfl

/-- What the writing of one hole does: the part it becomes, and the layout
before and after. -/
inductive Step (v : Vendor) (types : Types) (params : Registry) :
    Hole → Layout → Part → Layout → Prop where
  | literal (l : Layout) {x : Value} {text : String} (written : v.flavor.literal x = .ok text) :
    Step v types params (.literal x) l (.verbatim text) { l with fixed := l.fixed ++ [x] }
  | again {l : Layout} {token : String} {base : Nat} (index : Nat)
    (known : l.base? token = some base) :
    Step v types params (.element token index) l (.placeholder (base + index))
      (l.used v (base + index))
  | first {l : Layout} {token : String} {p : Param} (index : Nat)
    (unknown : l.base? token = none) (registered : params.byToken? token = some p) :
    Step v types params (.element token index) l (.placeholder (l.slots.length + index))
      ((l.opened types p).used v (l.slots.length + index))
  | span (l : Layout) (low high : Bound) :
    Step v types params (.span low high) l (.placeholder l.slots.length)
      ((l.openedSpan low high).used v l.slots.length)

theorem baseOf_yields {token : String} {l l' : Layout} {base : Nat}
    (run : Yields (baseOf types params token) l base l') :
    (l.base? token = some base ∧ l' = l) ∨
    ∃ p, l.base? token = none ∧ params.byToken? token = some p ∧ base = l.slots.length ∧
      l' = l.opened types p := by
  obtain ⟨_, _, got, rest⟩ := yields_bind.mp run
  obtain ⟨rfl, rfl⟩ := yields_get.mp got
  cases known : l.base? token with
  | some found =>
    simp only [known] at rest
    obtain ⟨rfl, rfl⟩ := yields_pure.mp rest
    exact .inl ⟨rfl, rfl⟩
  | none =>
    cases registered : params.byToken? token with
    | none =>
      simp only [known, registered] at rest
      exact absurd rest not_yields_throw
    | some p =>
      simp only [known, registered] at rest
      obtain ⟨_, _, stored, answer⟩ := yields_bind.mp rest
      obtain rfl := yields_set.mp stored
      obtain ⟨rfl, rfl⟩ := yields_pure.mp answer
      exact .inr ⟨p, rfl, rfl, rfl, rfl⟩

theorem place_yields {slot : Nat} {l l' : Layout} {p : Part} (run : Yields (place v slot) l p l') :
    p = .placeholder slot ∧ l' = l.used v slot := by
  obtain ⟨_, _, moved, answer⟩ := yields_bind.mp run
  obtain rfl := yields_modify.mp moved
  obtain ⟨rfl, rfl⟩ := yields_pure.mp answer
  exact ⟨rfl, rfl⟩

/-- Writing a hole takes one of the steps. -/
theorem part_step {h : Hole} {l l' : Layout} {p : Part}
    (run : Yields (part v types params h) l p l') : Step v types params h l p l' := by
  cases h with
  | literal x =>
    obtain ⟨text, _, wrote, rest⟩ := yields_bind.mp run
    obtain ⟨written, rfl⟩ := yields_ofExcept.mp wrote
    obtain ⟨_, _, moved, answer⟩ := yields_bind.mp rest
    obtain rfl := yields_modify.mp moved
    obtain ⟨rfl, rfl⟩ := yields_pure.mp answer
    exact .literal l written
  | element token index =>
    obtain ⟨base, middle, based, placed⟩ := yields_bind.mp run
    obtain ⟨rfl, rfl⟩ := place_yields placed
    rcases baseOf_yields based with ⟨known, rfl⟩ | ⟨p, unknown, registered, rfl, rfl⟩
    · exact .again index known
    · exact .first index unknown registered
  | span low high =>
    obtain ⟨_, _, got, rest⟩ := yields_bind.mp run
    obtain ⟨rfl, rfl⟩ := yields_get.mp got
    obtain ⟨_, _, moved, placed⟩ := yields_bind.mp rest
    obtain rfl := yields_modify.mp moved
    obtain ⟨rfl, rfl⟩ := place_yields placed
    simp only [slots_metBound]
    exact .span l low high

theorem byToken?_some {token : String} {p : Param} (found : params.byToken? token = some p) :
    p ∈ params.params ∧ p.token = token :=
  ⟨List.mem_of_find?_eq_some found, by simpa using List.find?_some found⟩

/-- What feeds the slot of a hole, when the hole waits for a value. -/
def sourceOf? (params : Registry) : Hole → Option SlotSource
  | .literal _ => none
  | .element token index => (params.byToken? token).map fun p => .element token p.name index
  | .span low high => some (.span low high)

/-! ### The layout grows -/

/-- Slots and positions are only appended. -/
def Grows (l l' : Layout) : Prop :=
  l.slots <+: l'.slots ∧ l.positions <+: l'.positions

theorem grows_refl (l : Layout) : Grows l l :=
  ⟨List.prefix_refl _, List.prefix_refl _⟩

theorem grows_trans {l l' l'' : Layout} (first : Grows l l') (second : Grows l' l'') :
    Grows l l'' :=
  ⟨first.1.trans second.1, first.2.trans second.2⟩

theorem slot_kept {l l' : Layout} {i : Nat} {s : Slot} (grows : Grows l l')
    (held : l.slots[i]? = some s) : l'.slots[i]? = some s := by
  obtain ⟨more, same⟩ := grows.1
  rw [← same]
  exact List.getElem?_append_left (List.getElem?_eq_some_iff.mp held).1 ▸ held

theorem position_kept {l l' : Layout} {j i : Nat} (grows : Grows l l')
    (held : l.positions[j]? = some i) : l'.positions[j]? = some i := by
  obtain ⟨more, same⟩ := grows.2
  rw [← same]
  exact List.getElem?_append_left (List.getElem?_eq_some_iff.mp held).1 ▸ held

theorem grows_used (l : Layout) (v : Vendor) (slot : Nat) : Grows l (l.used v slot) := by
  refine ⟨by simp, ?_⟩
  unfold Layout.used
  split
  · exact List.prefix_refl _
  · exact List.prefix_append _ _

theorem slots_opened (l : Layout) (types : Types) (p : Param) :
    (l.opened types p).slots = l.slots ++ Layout.slotsOf types p := by
  simp [Layout.opened]

theorem slots_openedSpan (l : Layout) (low high : Bound) :
    (l.openedSpan low high).slots = l.slots ++ [⟨.span low high, .bigInteger⟩] := by
  simp [Layout.openedSpan]

theorem step_grows {h : Hole} {l l' : Layout} {p : Part} (step : Step v types params h l p l') :
    Grows l l' := by
  cases step with
  | literal => exact grows_refl l
  | again => exact grows_used l v _
  | @first _ _ p =>
    refine grows_trans ⟨?_, ?_⟩ (grows_used (l.opened types p) v _)
    · rw [slots_opened]
      exact List.prefix_append _ _
    · simp [Layout.opened]
  | span _ low high =>
    refine grows_trans ⟨?_, ?_⟩ (grows_used (l.openedSpan low high) v _)
    · rw [slots_openedSpan]
      exact List.prefix_append _ _
    · simp [Layout.openedSpan]

/-! ### The layout is sound -/

/-- The hole asks for an element that its parameter has, and for nothing else
than what is supplied. -/
def Fits (params : Registry) (supplied : SlotSource → Prop) : Hole → Prop
  | .literal _ => True
  | .element token index => ∀ p, params.byToken? token = some p → index < p.slots
  | .span low high => supplied (.span low high)

/-- Every element of every parameter is supplied. -/
def Supplies (params : Registry) (supplied : SlotSource → Prop) : Prop :=
  ∀ p ∈ params.params, ∀ index < p.slots, supplied (.element p.token p.name index)

/-- The slots of a parameter that was met lie one after the other from its base
on, every slot is supplied, and every position names a slot. -/
structure Sound (params : Registry) (supplied : SlotSource → Prop) (l : Layout) : Prop where
  run : ∀ token base, l.base? token = some base → ∃ p, params.byToken? token = some p ∧
    ∀ index < p.slots,
      (l.slots[base + index]?).map Slot.source = some (.element token p.name index)
  slots : ∀ s ∈ l.slots, supplied s.source
  positions : ∀ i ∈ l.positions, i < l.slots.length

theorem sound_empty (params : Registry) (supplied : SlotSource → Prop) :
    Sound params supplied {} :=
  ⟨fun _ _ known => by simp [Layout.base?] at known, by simp, by simp⟩

variable {supplied : SlotSource → Prop}

private theorem sound_used {l : Layout} {slot : Nat} (sound : Sound params supplied l)
    (inside : slot < l.slots.length) : Sound params supplied (l.used v slot) := by
  refine ⟨?_, ?_, ?_⟩
  · intro token base known
    rw [slots_used]
    rw [Layout.base?, bases_used] at known
    exact sound.run token base known
  · rw [slots_used]
    exact sound.slots
  · rw [slots_used]
    unfold Layout.used
    split
    · exact sound.positions
    · intro i member
      rcases List.mem_append.mp member with old | new
      · exact sound.positions i old
      · rw [List.mem_singleton.mp new]
        exact inside

private theorem source_slotsOf (p : Param) (index : Nat) (inside : index < p.slots) :
    ((Layout.slotsOf types p)[index]?).map Slot.source = some (.element p.token p.name index) := by
  simp [Layout.slotsOf, List.getElem?_range inside]

private theorem source_opened (types : Types) (l : Layout) (p : Param) (index : Nat)
    (inside : index < p.slots) :
    ((l.opened types p).slots[l.slots.length + index]?).map Slot.source =
      some (.element p.token p.name index) := by
  rw [slots_opened, List.getElem?_append_right (Nat.le_add_right _ _), Nat.add_sub_cancel_left]
  exact source_slotsOf p index inside

private theorem sound_opened {l : Layout} {token : String} {p : Param}
    (sound : Sound params supplied l) (supplies : Supplies params supplied)
    (registered : params.byToken? token = some p) :
    Sound params supplied (l.opened types p) := by
  obtain ⟨member, named⟩ := byToken?_some registered
  refine ⟨?_, ?_, ?_⟩
  · intro other base known
    have bases : (l.opened types p).bases = l.bases ++ [(p.token, l.slots.length)] := by
      simp [Layout.opened]
    rw [Layout.base?, bases, List.find?_append] at known
    cases old : l.bases.find? (·.1 == other) with
    | some entry =>
      have before : l.base? other = some base := by
        rw [old] at known
        rw [Layout.base?, old]
        exact known
      obtain ⟨q, found, contiguous⟩ := sound.run other base before
      refine ⟨q, found, fun index inside => ?_⟩
      obtain ⟨s, held, source⟩ := Option.map_eq_some_iff.mp (contiguous index inside)
      have grown : Grows l (l.opened types p) := by
        refine ⟨?_, by simp [Layout.opened]⟩
        rw [slots_opened]
        exact List.prefix_append _ _
      rw [slot_kept grown held, Option.map_some, source]
    | none =>
      have fresh : p.token = other ∧ base = l.slots.length := by
        by_cases same : p.token = other
        · simp [old, same] at known
          exact ⟨same, known.symm⟩
        · simp [old, same] at known
      obtain ⟨rfl, rfl⟩ := fresh
      rw [← named] at registered
      exact ⟨p, registered, source_opened types l p⟩
  · rw [slots_opened]
    intro s held
    rcases List.mem_append.mp held with old | new
    · exact sound.slots s old
    · obtain ⟨index, inside, rfl⟩ := List.mem_map.mp new
      exact supplies p member index (List.mem_range.mp inside)
  · rw [slots_opened, List.length_append]
    intro i held
    have kept : i ∈ l.positions := by simpa [Layout.opened] using held
    exact Nat.lt_add_right _ (sound.positions i kept)

private theorem sound_openedSpan {l : Layout} {low high : Bound}
    (sound : Sound params supplied l) (fits : supplied (.span low high)) :
    Sound params supplied (l.openedSpan low high) := by
  refine ⟨?_, ?_, ?_⟩
  · intro token base known
    have bases : (l.openedSpan low high).bases = l.bases := by simp [Layout.openedSpan]
    rw [Layout.base?, bases] at known
    obtain ⟨q, found, contiguous⟩ := sound.run token base known
    refine ⟨q, found, fun index inside => ?_⟩
    obtain ⟨s, held, source⟩ := Option.map_eq_some_iff.mp (contiguous index inside)
    rw [slots_openedSpan, List.getElem?_append_left (List.getElem?_eq_some_iff.mp held).1, held,
      Option.map_some, source]
  · rw [slots_openedSpan]
    intro s held
    rcases List.mem_append.mp held with old | new
    · exact sound.slots s old
    · rw [List.mem_singleton.mp new]
      exact fits
  · rw [slots_openedSpan, List.length_append]
    intro i held
    have kept : i ∈ l.positions := by simpa [Layout.openedSpan] using held
    exact Nat.lt_add_right _ (sound.positions i kept)

/-- A placeholder belongs to a slot that the source of its hole feeds; where
placeholders have no number, the slot is noted as the next position. -/
def Placed (v : Vendor) (params : Registry) (h : Hole) (l : Layout) (slot : Nat) (l' : Layout) :
    Prop :=
  ∃ source, sourceOf? params h = some source ∧
    (l'.slots[slot]?).map Slot.source = some source ∧
    (v.numbersPlaceholders = false → l'.positions[l.positions.length]? = some slot ∧
      l'.positions.length = l.positions.length + 1)

private theorem positions_used (l : Layout) (slot : Nat)
    (anonymous : v.numbersPlaceholders = false) :
    (l.used v slot).positions[l.positions.length]? = some slot ∧
      (l.used v slot).positions.length = l.positions.length + 1 := by
  simp [Layout.used, anonymous]

/-- One step keeps a layout sound, and its placeholder has the right slot. -/
theorem step_sound {h : Hole} {l l' : Layout} {p : Part} (supplies : Supplies params supplied)
    (sound : Sound params supplied l) (fits : Fits params supplied h)
    (step : Step v types params h l p l') :
    Sound params supplied l' ∧ ∀ slot, p = .placeholder slot → Placed v params h l slot l' := by
  cases step with
  | literal =>
    refine ⟨⟨sound.run, sound.slots, sound.positions⟩, ?_⟩
    intro slot written
    cases written
  | @again _ token base index known =>
    obtain ⟨q, found, contiguous⟩ := sound.run token base known
    have source := contiguous index (fits q found)
    obtain ⟨s, held, _⟩ := Option.map_eq_some_iff.mp source
    refine ⟨sound_used sound (List.getElem?_eq_some_iff.mp held).1, ?_⟩
    rintro _ ⟨⟩
    refine ⟨.element token q.name index, by simp [sourceOf?, found], ?_, positions_used l _⟩
    rw [slots_used]
    exact source
  | @first _ token q index unknown registered =>
    have inside := fits q registered
    have source := source_opened types l q index inside
    obtain ⟨s, held, _⟩ := Option.map_eq_some_iff.mp source
    have opened : Sound params supplied (l.opened types q) :=
      sound_opened sound supplies registered
    refine ⟨sound_used opened (List.getElem?_eq_some_iff.mp held).1, ?_⟩
    rintro _ ⟨⟩
    have same : (l.opened types q).positions = l.positions := by simp [Layout.opened]
    refine ⟨.element token q.name index, by simp [sourceOf?, registered], ?_, ?_⟩
    · rw [slots_used, source, (byToken?_some registered).2]
    · rw [← same]
      exact positions_used (l.opened types q) _
  | span _ low high =>
    have source : (l.openedSpan low high).slots[l.slots.length]? =
        some ⟨.span low high, .bigInteger⟩ := by
      rw [slots_openedSpan]
      simp
    refine ⟨sound_used (sound_openedSpan sound fits) (List.getElem?_eq_some_iff.mp source).1, ?_⟩
    rintro _ ⟨⟩
    have same : (l.openedSpan low high).positions = l.positions := by simp [Layout.openedSpan]
    refine ⟨.span low high, rfl, ?_, ?_⟩
    · rw [slots_used, source, Option.map_some]
    · rw [← same]
      exact positions_used (l.openedSpan low high) _

end

end PreparedSql.Prepared
