import PreparedSql.Proofs.QueryText

/-! The table of slots that comes with a body. The holes of a statement come in
groups, one for each appearance of a literal, of a parameter or of the number of
rows of a slice. A group opens slots behind all others or goes back to slots
that are there, so the slots of a parameter are one run that no other slot
breaks, and the placeholders meet new slots in order. -/
namespace PreparedSql

open Piece

/-- The slot of a placeholder. -/
def Part.slot? : Part → Option Nat
  | verbatim _ => none
  | placeholder slot => some slot

namespace Hole

/-- The parameters that a hole waits for, `issued` being the parameter of a token. -/
def params (issued : String → Param) : Hole → List Param
  | .literal _ => []
  | .element token _ => [issued token]
  | .span low high => (low.leaves ++ high.leaves).filterMap Leaf.param?

/-- What the hole waits for was issued with the tokens that it has. -/
def Issued (issued : String → Param) : Hole → Prop
  | .literal _ => True
  | .element token _ => (issued token).token = token
  | .span low high => ∀ p, .param p ∈ [low, high] → issued p.token = p

end Hole

namespace Prepared

/-- The slots of the placeholders in a body, from left to right. -/
def placeholders (ps : List Part) : List Nat :=
  ps.filterMap Part.slot?

/-- Steps for one hole after the other, and the slots of the placeholders that
they write. -/
inductive Steps (v : Vendor) (types : Types) (params : Registry) :
    List Hole → Layout → List Nat → Layout → Prop where
  | done (l : Layout) : Steps v types params [] l [] l
  | step {h : Hole} {hs : List Hole} {l middle l' : Layout} {p : Part} {ks : List Nat}
    (first : Step v types params h l p middle) (rest : Steps v types params hs middle ks l') :
    Steps v types params (h :: hs) l (p.slot?.toList ++ ks) l'

section
variable {v : Vendor} {types : Types} {params : Registry} {l l' : Layout} {hs hs' : List Hole}
  {ks : List Nat}

/-- The parts of a body are written in steps, one for each hole. -/
theorem steps_of_parts {ps : List Piece} {made : List Part}
    (run : Yields (parts v types params ps) l made l') :
    Steps v types params (holes ps) l (placeholders made) l' := by
  induction ps generalizing l made with
  | nil =>
    obtain ⟨rfl, rfl⟩ := yields_pure.mp run
    exact .done l
  | cons p ps ih =>
    cases p with
    | text s =>
      obtain ⟨_, _, rest, answer⟩ := yields_bind.mp run
      obtain ⟨rfl, rfl⟩ := yields_pure.mp answer
      have steps := ih rest
      exact steps
    | hole h =>
      obtain ⟨p, middle, wrote, run⟩ := yields_bind.mp run
      obtain ⟨made, _, rest, answer⟩ := yields_bind.mp run
      obtain ⟨rfl, rfl⟩ := yields_pure.mp answer
      have split : placeholders (p :: made) = p.slot?.toList ++ placeholders made := by
        cases p <;> rfl
      rw [holes_hole, split]
      exact .step (part_step wrote) (ih rest)

theorem steps_append (steps : Steps v types params (hs ++ hs') l ks l') :
    ∃ middle front back, Steps v types params hs l front middle ∧
      Steps v types params hs' middle back l' ∧ ks = front ++ back := by
  induction hs generalizing l ks with
  | nil => exact ⟨l, [], ks, .done l, steps, rfl⟩
  | cons h hs ih =>
    obtain _ | ⟨first, rest⟩ := steps
    obtain ⟨middle, front, back, inFront, behind, rfl⟩ := ih rest
    exact ⟨middle, _, back, .step first inFront, behind, (List.append_assoc ..).symm⟩

theorem steps_grow (steps : Steps v types params hs l ks l') : Grows l l' := by
  induction steps with
  | done l => exact grows_refl l
  | step first _ ih => exact grows_trans (step_grows first) ih

/-! ### Which slots a step opens -/

/-- A slot is as the registry has it: an element of a parameter, typed as the
parameter is bound, or the number of rows of a slice. -/
def Slot.Typed (types : Types) (params : Registry) (s : Slot) : Prop :=
  (∃ p ∈ params.params, ∃ index, s.source = .element p.token p.name index ∧
    s.fieldType = ((types.fieldType? p).map FieldType.bindType).getD .text) ∨
  ∃ low high, s = ⟨.span low high, .bigInteger⟩

theorem step_typed {h : Hole} {p : Part} (typed : ∀ s ∈ l.slots, Slot.Typed types params s)
    (step : Step v types params h l p l') : ∀ s ∈ l'.slots, Slot.Typed types params s := by
  cases step with
  | literal => exact typed
  | again =>
    rw [slots_used]
    exact typed
  | @first _ _ p _ _ registered =>
    rw [slots_used, slots_opened]
    intro s held
    rcases List.mem_append.mp held with old | new
    · exact typed s old
    · obtain ⟨index, _, rfl⟩ := List.mem_map.mp new
      exact .inl ⟨p, (byToken?_some registered).1, index, rfl, rfl⟩
  | span _ low high =>
    rw [slots_used, slots_openedSpan]
    intro s held
    rcases List.mem_append.mp held with old | new
    · exact typed s old
    · rw [List.mem_singleton.mp new]
      exact .inr ⟨low, high, rfl⟩

theorem steps_typed (typed : ∀ s ∈ l.slots, Slot.Typed types params s)
    (steps : Steps v types params hs l ks l') : ∀ s ∈ l'.slots, Slot.Typed types params s := by
  induction steps with
  | done => exact typed
  | step first _ ih => exact ih (step_typed typed first)

/-! ### Every element has its one slot -/

/-- A slot for an element of a parameter lies in the run of slots that begins at
the base of the parameter, at the place of the element. -/
def Exclusive (params : Registry) (l : Layout) : Prop :=
  ∀ k token name index, (l.slots[k]?).map Slot.source = some (.element token name index) →
    ∃ base p, l.base? token = some base ∧ params.byToken? token = some p ∧ name = p.name ∧
      index < p.slots ∧ k = base + index

private theorem source_append {slots more : List Slot} {k : Nat} {source : SlotSource}
    (held : ((slots ++ more)[k]?).map Slot.source = some source) :
    (slots[k]?).map Slot.source = some source ∨
      ∃ i, k = slots.length + i ∧ (more[i]?).map Slot.source = some source := by
  by_cases inside : k < slots.length
  · rw [List.getElem?_append_left inside] at held
    exact .inl held
  · rw [List.getElem?_append_right (by omega)] at held
    exact .inr ⟨k - slots.length, by omega, held⟩

private theorem base?_opened (types : Types) (l : Layout) (p : Param) (token : String) :
    (l.opened types p).base? token =
      (l.base? token).or (if p.token = token then some l.slots.length else none) := by
  have bases : (l.opened types p).bases = l.bases ++ [(p.token, l.slots.length)] := by
    simp [Layout.opened]
  rw [Layout.base?, bases, List.find?_append, Layout.base?]
  cases l.bases.find? (·.1 == token) with
  | some entry => rfl
  | none => by_cases same : p.token = token <;> simp [same]

private theorem exclusive_used {slot : Nat} (exclusive : Exclusive params l) :
    Exclusive params (l.used v slot) := by
  intro k token name index held
  rw [slots_used] at held
  rw [Layout.base?, bases_used]
  exact exclusive k token name index held

theorem step_exclusive {h : Hole} {p : Part} (exclusive : Exclusive params l)
    (step : Step v types params h l p l') : Exclusive params l' := by
  cases step with
  | literal => exact exclusive
  | again => exact exclusive_used exclusive
  | @first _ _ p _ unknown registered =>
    refine exclusive_used fun k other name index held => ?_
    obtain ⟨_, rfl⟩ := byToken?_some registered
    rw [slots_opened] at held
    rcases source_append held with old | ⟨i, rfl, new⟩
    · obtain ⟨base, q, known, rest⟩ := exclusive k other name index old
      exact ⟨base, q, by rw [base?_opened, known, Option.some_or], rest⟩
    · obtain ⟨s, found, source⟩ := Option.map_eq_some_iff.mp new
      obtain ⟨inside, rfl⟩ := List.getElem?_eq_some_iff.mp found
      simp only [Layout.slotsOf, List.getElem_map, List.getElem_range, SlotSource.element.injEq]
        at source
      obtain ⟨rfl, rfl, rfl⟩ := source
      refine ⟨l.slots.length, p, by rw [base?_opened, unknown]; simp, registered, rfl, ?_, rfl⟩
      simpa [Layout.slotsOf] using inside
  | span _ low high =>
    refine exclusive_used fun k token name index held => ?_
    rw [slots_openedSpan] at held
    rcases source_append held with old | ⟨i, _, new⟩
    · obtain ⟨base, q, known, rest⟩ := exclusive k token name index old
      refine ⟨base, q, ?_, rest⟩
      rw [Layout.base?] at known ⊢
      simpa [Layout.openedSpan] using known
    · obtain ⟨s, found, source⟩ := Option.map_eq_some_iff.mp new
      rw [List.mem_singleton.mp (List.mem_of_getElem? found)] at source
      cases source

theorem steps_exclusive (exclusive : Exclusive params l)
    (steps : Steps v types params hs l ks l') : Exclusive params l' := by
  induction steps with
  | done => exact exclusive
  | step first _ ih => exact ih (step_exclusive exclusive first)

private theorem base?_used {slot : Nat} (l : Layout) (token : String) :
    (l.used v slot).base? token = l.base? token := by
  rw [Layout.base?, bases_used, Layout.base?]

private theorem base?_openedSpan (l : Layout) (low high : Bound) (token : String) :
    (l.openedSpan low high).base? token = l.base? token := by
  simp [Layout.base?, Layout.openedSpan]

theorem step_keeps_base {h : Hole} {p : Part} {token : String} {base : Nat}
    (known : l.base? token = some base) (step : Step v types params h l p l') :
    l'.base? token = some base := by
  cases step with
  | literal => exact known
  | again => rwa [base?_used]
  | first => rw [base?_used, base?_opened, known, Option.some_or]
  | span => rwa [base?_used, base?_openedSpan]

theorem steps_keep_base {token : String} {base : Nat} (known : l.base? token = some base)
    (steps : Steps v types params hs l ks l') : l'.base? token = some base := by
  induction steps with
  | done => exact known
  | step first _ ih => exact ih (step_keeps_base known first)

private theorem base_of_step {token : String} {index : Nat} {p : Part}
    (step : Step v types params (.element token index) l p l') :
    ∃ base, l'.base? token = some base := by
  cases step with
  | again _ known => exact ⟨_, (base?_used l token).trans known⟩
  | first _ unknown registered =>
    obtain ⟨_, rfl⟩ := byToken?_some registered
    refine ⟨l.slots.length, ?_⟩
    rw [base?_used, base?_opened, unknown, Option.none_or, if_pos rfl]

/-- A parameter that is asked for has slots from then on. -/
theorem base_of_asked {token : String} {index : Nat} (asked : .element token index ∈ hs)
    (steps : Steps v types params hs l ks l') : ∃ base, l'.base? token = some base := by
  induction steps with
  | done => cases asked
  | step first rest ih =>
    rcases List.mem_cons.mp asked with here | later
    · subst here
      obtain ⟨base, known⟩ := base_of_step first
      exact ⟨base, steps_keep_base known rest⟩
    · exact ih later

/-! ### The order of the parameters -/

/-- No parameter is noted twice, each is noted with its name, and those with
slots are noted. -/
structure Noted (issued : String → Param) (l : Layout) : Prop where
  order : l.order.Nodup
  names : l.names = l.order.map fun token => (issued token).name
  based : ∀ token base, l.base? token = some base → token ∈ l.order

variable {issued : String → Param}

private theorem mem_met (l : Layout) (p : Param) (token : String) :
    token ∈ (l.met p).order ↔ token ∈ l.order ∨ p.token = token := by
  unfold Layout.met
  split
  · next met =>
    refine ⟨.inl, fun held => held.elim id fun same => ?_⟩
    rw [← same]
    simpa using met
  · simp [eq_comm]

private theorem mem_metBound (l : Layout) (b : Bound) (token : String) :
    token ∈ (l.metBound b).order ↔ token ∈ l.order ∨ ∃ p, b = .param p ∧ p.token = token := by
  cases b with
  | row n => simp [Layout.metBound]
  | param p => simp [Layout.metBound, mem_met]

private theorem order_used {slot : Nat} (l : Layout) : (l.used v slot).order = l.order := by
  unfold Layout.used
  split <;> rfl

private theorem noted_met {p : Param} (noted : Noted issued l) (known : issued p.token = p) :
    (l.met p).order.Nodup ∧ (l.met p).names = (l.met p).order.map fun token => (issued token).name := by
  unfold Layout.met
  split
  · exact ⟨noted.order, noted.names⟩
  · next unmet =>
    refine ⟨?_, ?_⟩
    · rw [List.nodup_append]
      refine ⟨noted.order, by simp, fun token old other new same => ?_⟩
      rw [List.mem_singleton.mp new] at same
      exact unmet (by simpa [same] using old)
    · simp [noted.names, known]

private theorem noted_metBound {b : Bound} (noted : Noted issued l)
    (known : ∀ p, b = .param p → issued p.token = p) : Noted issued (l.metBound b) := by
  cases b with
  | row n => exact noted
  | param p =>
    obtain ⟨order, names⟩ := noted_met noted (known p rfl)
    refine ⟨order, names, fun token base met => (mem_met l p token).mpr (.inl ?_)⟩
    rw [Layout.base?, Layout.metBound, bases_met] at met
    exact noted.based token base met

private theorem noted_used {slot : Nat} (noted : Noted issued l) :
    Noted issued (l.used v slot) := by
  unfold Layout.used
  split
  · exact noted
  · exact ⟨noted.order, noted.names, noted.based⟩

/-- A step notes the parameters of its hole and no others. -/
theorem step_noted {h : Hole} {p : Part} (registry : ∀ p ∈ params.params, issued p.token = p)
    (known : Hole.Issued issued h) (noted : Noted issued l)
    (step : Step v types params h l p l') :
    Noted issued l' ∧ ∀ token, token ∈ l'.order ↔
      token ∈ l.order ∨ ∃ x ∈ Hole.params issued h, x.token = token := by
  cases step with
  | literal => exact ⟨⟨noted.order, noted.names, noted.based⟩, by simp [Hole.params]⟩
  | again _ met =>
    refine ⟨noted_used noted, fun token => ?_⟩
    have held := noted.based _ _ met
    have own : (issued _).token = _ := known
    rw [order_used]
    simp only [Hole.params, List.mem_singleton, exists_eq_left, own]
    exact ⟨.inl, fun found => found.elim id fun same => same ▸ held⟩
  | @first _ token p _ unknown registered =>
    obtain ⟨member, rfl⟩ := byToken?_some registered
    have own := registry p member
    have opened : (l.opened types p).order = (l.met p).order := by
      unfold Layout.opened Layout.met
      split <;> rfl
    have names : (l.opened types p).names = (l.met p).names := by
      unfold Layout.opened Layout.met
      split <;> rfl
    obtain ⟨order, aligned⟩ := noted_met noted own
    refine ⟨noted_used ⟨opened ▸ order, by rw [opened, names, aligned], ?_⟩, fun token => ?_⟩
    · intro token base met
      rw [opened, mem_met]
      rw [base?_opened] at met
      cases old : l.base? token with
      | some base' => exact .inl (noted.based token base' old)
      | none =>
        rw [old, Option.none_or] at met
        split at met
        · next same => exact .inr same
        · cases met
    · rw [order_used, opened, mem_met]
      simp [Hole.params, own]
  | span _ low high =>
    have middle : Noted issued (l.metBound low) :=
      noted_metBound noted fun p same => known p (by simp [same])
    have met : Noted issued ((l.metBound low).metBound high) :=
      noted_metBound middle fun p same => known p (by simp [same])
    refine ⟨noted_used ⟨met.order, met.names, met.based⟩, fun token => ?_⟩
    have opened : (l.openedSpan low high).order = ((l.metBound low).metBound high).order := rfl
    rw [order_used, opened, mem_metBound, mem_metBound, or_assoc]
    simp only [Hole.params, Leaf.mem_params, List.mem_append, Bound.mem_leaves, or_and_right,
      exists_or]

/-- Steps note the parameters of their holes and no others. -/
theorem steps_noted (registry : ∀ p ∈ params.params, issued p.token = p)
    (known : ∀ h ∈ hs, Hole.Issued issued h) (noted : Noted issued l)
    (steps : Steps v types params hs l ks l') :
    Noted issued l' ∧ ∀ token, token ∈ l'.order ↔
      token ∈ l.order ∨ ∃ h ∈ hs, ∃ x ∈ Hole.params issued h, x.token = token := by
  induction steps with
  | done => exact ⟨noted, by simp⟩
  | step first _ ih =>
    obtain ⟨middle, one⟩ := step_noted registry (known _ List.mem_cons_self) noted first
    obtain ⟨noted', others⟩ := ih (fun h member => known h (List.mem_cons_of_mem _ member)) middle
    refine ⟨noted', fun token => ?_⟩
    rw [others, one, or_assoc]
    simp

/-! ### The slots of the placeholders -/

/-- An anonymous placeholder takes the next argument, from its slot. -/
theorem positions_of_steps (anonymous : v.numbersPlaceholders = false)
    (steps : Steps v types params hs l ks l') : l'.positions = l.positions ++ ks := by
  induction steps with
  | done => simp
  | step first _ ih =>
    rw [ih, ← List.append_assoc]
    congr 1
    cases first with
    | literal => simp [Part.slot?]
    | again => simp [Part.slot?, Layout.used, anonymous]
    | first => simp [Part.slot?, Layout.used, anonymous, Layout.opened]
    | span => simp [Part.slot?, Layout.used, anonymous, Layout.openedSpan]

/-- The placeholder of an open hole belongs to the slot that feeds the hole. -/
theorem sources_of_steps (sound : Sound params (fun _ => True) l)
    (fits : ∀ h ∈ hs, Fits params (fun _ => True) h) (steps : Steps v types params hs l ks l') :
    ks.map (fun k => (l'.slots[k]?).map Slot.source) =
      (hs.filterMap (sourceOf? params)).map some := by
  induction steps with
  | done => rfl
  | @step h hs l middle l' p ks first rest ih =>
    have fit := fits h List.mem_cons_self
    obtain ⟨later, placed⟩ := step_sound (fun _ _ _ _ => trivial) sound fit first
    rw [List.map_append, ih later fun h member => fits h (List.mem_cons_of_mem _ member)]
    cases p with
    | verbatim s =>
      cases first
      rfl
    | placeholder slot =>
      obtain ⟨source, fed, held, _⟩ := placed slot rfl
      obtain ⟨s, found, rfl⟩ := Option.map_eq_some_iff.mp held
      have kept := slot_kept (steps_grow rest) found
      rw [List.filterMap_cons_some fed]
      simp [Part.slot?, kept]

/-! ### Groups of holes -/

private theorem slot?_again {base index : Nat} {ks : List Nat} :
    (Part.placeholder (base + index)).slot?.toList ++ ks = (base + index) :: ks := rfl

/-- The elements of a parameter that was met go to its slots. -/
private theorem steps_known {token : String} {base : Nat} {indices : List Nat}
    (known : l.base? token = some base)
    (steps : Steps v types params (indices.map (.element token)) l ks l') :
    ks = indices.map (base + ·) ∧ l'.slots = l.slots := by
  induction indices generalizing l ks with
  | nil =>
    cases steps
    exact ⟨rfl, rfl⟩
  | cons index indices ih =>
    obtain _ | ⟨first, rest⟩ := steps
    cases first with
    | @again _ _ found _ known' =>
      obtain rfl : found = base := by
        rw [known] at known'
        exact (Option.some.inj known').symm
      have kept : (l.used v (found + index)).base? token = some found := by
        rwa [base?_used]
      obtain ⟨rfl, slots⟩ := ih kept rest
      rw [slots, slots_used]
      exact ⟨rfl, rfl⟩
    | first _ unknown =>
      rw [known] at unknown
      cases unknown

/-- A group of holes goes back to slots that are there, or opens slots behind
them and meets each in turn. -/
def Continues (l : Layout) (ks : List Nat) (l' : Layout) : Prop :=
  (l'.slots.length = l.slots.length ∧ ∀ k ∈ ks, k < l.slots.length) ∨
    ∃ n, l'.slots.length = l.slots.length + n ∧ ks = List.range' l.slots.length n

theorem continues_param {p : Param} (sound : Sound params (fun _ => True) l)
    (identified : ∀ r, params.byToken? p.token = some r → r = p)
    (steps : Steps v types params (Leaf.param p).holes l ks l') : Continues l ks l' := by
  cases met : l.base? p.token with
  | some base =>
    obtain ⟨rfl, slots⟩ := steps_known met steps
    refine .inl ⟨by rw [slots], fun k member => ?_⟩
    obtain ⟨index, inside, rfl⟩ := List.mem_map.mp member
    obtain ⟨r, registered, run⟩ := sound.run p.token base met
    obtain rfl := identified r registered
    obtain ⟨s, held, _⟩ := Option.map_eq_some_iff.mp (run index (List.mem_range.mp inside))
    exact (List.getElem?_eq_some_iff.mp held).1
  | none =>
    -- The first element opens the slots; the others find them known.
    obtain ⟨n, slots⟩ : ∃ n, p.slots = n + 1 := ⟨p.slots - 1, by have := p.slots_pos; omega⟩
    rw [Leaf.holes, slots, List.range_succ_eq_map, List.map_cons] at steps
    obtain _ | ⟨first, rest⟩ := steps
    cases first with
    | again _ known =>
      rw [met] at known
      cases known
    | @first _ _ r _ _ registered =>
      obtain rfl := identified r registered
      have known : ((l.opened types r).used v (l.slots.length + 0)).base? r.token =
          some l.slots.length := by
        rw [base?_used, base?_opened, met, Option.none_or, if_pos rfl]
      obtain ⟨rfl, kept⟩ := steps_known known rest
      refine .inr ⟨n + 1, ?_, ?_⟩
      · rw [kept, slots_used, slots_opened, List.length_append]
        simp [Layout.slotsOf, slots]
      · rw [slot?_again, ← List.map_cons (f := (l.slots.length + ·)), ← List.range_succ_eq_map,
          List.range'_eq_map_range]

theorem continues_literal {x : Value} (steps : Steps v types params [.literal x] l ks l') :
    Continues l ks l' := by
  obtain _ | ⟨first, rest⟩ := steps
  cases first
  cases rest
  exact .inl ⟨rfl, by simp [Part.slot?]⟩

theorem continues_span {low high : Bound}
    (steps : Steps v types params [.span low high] l ks l') : Continues l ks l' := by
  obtain _ | ⟨first, rest⟩ := steps
  cases first
  cases rest
  refine .inr ⟨1, ?_, by simp [Part.slot?]⟩
  rw [slots_used, slots_openedSpan]
  simp

/-- Each slot is met, and new slots are met in order. -/
def Covers (ks : List Nat) (l : Layout) : Prop :=
  ks.eraseDups = List.range l.slots.length

private theorem eraseDups_of_nodup {ks : List Nat} (distinct : ks.Nodup) : ks.eraseDups = ks := by
  induction ks with
  | nil => rfl
  | cons k ks ih =>
    rw [List.nodup_cons] at distinct
    have others : (ks.filter fun other => !other == k) = ks := by
      rw [List.filter_eq_self]
      intro other member
      have foreign : other ≠ k := fun same => distinct.1 (same ▸ member)
      simp [foreign]
    rw [List.eraseDups_cons, others, ih distinct.2]

theorem covers_append {seen : List Nat} (covers : Covers seen l) (continues : Continues l ks l') :
    Covers (seen ++ ks) l' := by
  have old (k : Nat) : k ∈ seen ↔ k < l.slots.length := by
    rw [← List.mem_eraseDups, covers, List.mem_range]
  unfold Covers at covers ⊢
  rw [List.eraseDups_append, covers]
  rcases continues with ⟨length, back⟩ | ⟨n, length, rfl⟩
  · have none : ks.removeAll seen = [] := by
      rw [List.removeAll, List.filter_eq_nil_iff]
      intro k member
      simpa [old] using back k member
    rw [none, length]
    simp
  · have all : (List.range' l.slots.length n).removeAll seen = List.range' l.slots.length n := by
      rw [List.removeAll, List.filter_eq_self]
      intro k member
      simpa [old] using (List.mem_range'_1.mp member).1
    rw [all, length, eraseDups_of_nodup List.nodup_range', List.range_eq_range', List.range_eq_range',
      ← List.range'_append]
    simp

/-- The holes of one appearance of a literal, of a parameter that the registry
does not confuse with another, or of the number of rows of a slice. -/
inductive Group (params : Registry) : List Hole → Prop where
  | literal (x : Value) : Group params [.literal x]
  | param {p : Param} (identified : ∀ r, params.byToken? p.token = some r → r = p) :
    Group params (Leaf.param p).holes
  | span (low high : Bound) : Group params [.span low high]

theorem fits_group {g : List Hole} (group : Group params g) :
    ∀ h ∈ g, Fits params (fun _ => True) h := by
  intro h member
  cases group with
  | literal x =>
    obtain rfl := List.mem_singleton.mp member
    trivial
  | @param p identified =>
    obtain ⟨index, inside, rfl⟩ := List.mem_map.mp member
    intro r registered
    rw [identified r registered]
    exact List.mem_range.mp inside
  | span low high =>
    obtain rfl := List.mem_singleton.mp member
    trivial

theorem continues_group {g : List Hole} (group : Group params g)
    (sound : Sound params (fun _ => True) l) (steps : Steps v types params g l ks l') :
    Continues l ks l' := by
  cases group with
  | literal x => exact continues_literal steps
  | param identified => exact continues_param sound identified steps
  | span low high => exact continues_span steps

theorem steps_sound (sound : Sound params (fun _ => True) l)
    (fits : ∀ h ∈ hs, Fits params (fun _ => True) h) (steps : Steps v types params hs l ks l') :
    Sound params (fun _ => True) l' := by
  induction steps with
  | done => exact sound
  | step first _ ih =>
    have later := (step_sound (fun _ _ _ _ => trivial) sound (fits _ List.mem_cons_self) first).1
    exact ih later fun h member => fits h (List.mem_cons_of_mem _ member)

/-- Group after group, the placeholders meet every slot, and new slots in order. -/
theorem covers_groups {groups : List (List Hole)} {seen : List Nat}
    (each : ∀ g ∈ groups, Group params g) (sound : Sound params (fun _ => True) l)
    (covers : Covers seen l) (steps : Steps v types params groups.flatten l ks l') :
    Covers (seen ++ ks) l' := by
  induction groups generalizing l ks seen with
  | nil =>
    cases steps
    rw [List.append_nil]
    exact covers
  | cons g groups ih =>
    rw [List.flatten_cons] at steps
    obtain ⟨middle, front, back, inGroup, behind, rfl⟩ := steps_append steps
    have group := each g List.mem_cons_self
    have continued := covers_append covers (continues_group group sound inGroup)
    rw [← List.append_assoc]
    exact ih (fun g member => each g (List.mem_cons_of_mem _ member))
      (steps_sound sound (fits_group group) inGroup) continued behind

end

/-- What the holes of a statement wait for was issued with their tokens. -/
theorem issued_pieces {v : Vendor} {q : Query} {issued : String → Param} (known : q.Issued issued) :
    ∀ h ∈ holes (pieces v q), Hole.Issued issued h := by
  intro h member
  rcases mem_pieces (mem_holes.mp member) with ⟨b, sliced, rfl⟩ | leaf
  · intro p bound
    exact known p (.inl (Query.mem_leaves_of_bound (by simpa [sliced] using bound)))
  · obtain ⟨leaf, occurs, held⟩ := List.mem_flatMap.mp leaf
    cases leaf with
    | literal x =>
      obtain rfl := List.mem_singleton.mp held
      trivial
    | param p =>
      obtain ⟨index, _, rfl⟩ := List.mem_map.mp held
      have own := known p (.inl occurs)
      exact congrArg Param.token own

/-- The holes of the statement of a query come in groups. -/
theorem groups_pieces (v : Vendor) {q : Query} (identified : q.Identified) :
    ∃ groups : List (List Hole), holes (pieces v q) = groups.flatten ∧ ∀ g ∈ groups, Group q.params g := by
  have ofLeaf (leaf : Leaf) (inside : leaf ∈ q.leaves) : Group q.params leaf.holes := by
    cases leaf with
    | literal x => exact .literal x
    | param p =>
      refine .param fun r registered => ?_
      obtain ⟨held, named⟩ := byToken?_some registered
      exact identified p inside r held named
  have ofLeaves (leaves : List Leaf) (inside : ∀ leaf ∈ leaves, leaf ∈ q.leaves) :
      ∀ g ∈ leaves.map Leaf.holes, Group q.params g := by
    intro g member
    obtain ⟨leaf, held, rfl⟩ := List.mem_map.mp member
    exact ofLeaf leaf (inside leaf held)
  have front := ofLeaves q.frontLeaves fun _ held => List.mem_append_left _ held
  have low := ofLeaves q.low.leaves fun _ held =>
    List.mem_append_right _ (List.mem_append_left _ held)
  obtain ⟨groups, window, each⟩ : ∃ groups : List (List Hole),
      holes (v.flavor.window q.low q.high) = groups.flatten ∧ ∀ g ∈ groups, Group q.params g := by
    rw [Flavor.holes_window]
    cases sliced : q.high with
    | none => exact ⟨_, List.flatMap_def, low⟩
    | some b =>
      dsimp only
      split
      · refine ⟨_, List.flatMap_def, ofLeaves b.leaves fun _ held => ?_⟩
        refine List.mem_append_right _ (List.mem_append_right _ ?_)
        simpa [sliced] using held
      · split
        · refine ⟨[.span q.low b] :: q.low.leaves.map Leaf.holes, ?_, fun g member => ?_⟩
          · rw [List.flatten_cons, List.flatMap_def]
            rfl
          · rcases List.mem_cons.mp member with rfl | inLow
            · exact .span q.low b
            · exact low g inLow
        · exact ⟨[], rfl, fun _ none => by cases none⟩
  refine ⟨q.frontLeaves.map Leaf.holes ++ groups, ?_, fun g member => ?_⟩
  · rw [pieces_eq, holes_append, q.holes_front, window, List.flatten_append, List.flatMap_def]
  · rcases List.mem_append.mp member with inFront | inWindow
    · exact front g inFront
    · exact each g inWindow

/-- A hole of a statement asks for an element that its parameter has. -/
theorem fits_holes (v : Vendor) {q : Query} (identified : q.Identified) :
    ∀ h ∈ holes (pieces v q), Fits q.params (fun _ => True) h :=
  fun h member => fits_pieces identified (fun _ _ => trivial) h (mem_holes.mp member)

section
variable {v : Vendor} {types : Types} {q : Query} {ks : List Nat} {l : Layout}

/-- The placeholders of a body meet every slot, and new slots in order. -/
theorem covers_pieces (identified : q.Identified)
    (steps : Steps v types q.params (holes (pieces v q)) {} ks l) : Covers ks l := by
  obtain ⟨groups, grouped, each⟩ := groups_pieces v identified
  rw [grouped] at steps
  have nothing : Covers [] {} := rfl
  exact covers_groups each (sound_empty _ _) nothing steps

/-- The slot at a position is fed by what a hole of the statement asks for. -/
theorem fed_of_position {position : Nat} (identified : q.Identified)
    (steps : Steps v types q.params (holes (pieces v q)) {} ks l)
    (member : position ∈ positionsOf v l) :
    ∃ h ∈ holes (pieces v q), ∃ source, sourceOf? q.params h = some source ∧
      (l.slots[position]?).map Slot.source = some source := by
  have placed : position ∈ ks := by
    cases numbered : v.numbersPlaceholders with
    | true =>
      have covers : ks.eraseDups = List.range l.slots.length := covers_pieces identified steps
      rw [← List.mem_eraseDups, covers]
      simpa [positionsOf, numbered] using member
    | false =>
      simpa [positionsOf, numbered, positions_of_steps numbered steps] using member
  have fed := sources_of_steps (sound_empty _ _) (fits_holes v identified) steps
  have held := List.mem_map_of_mem (f := fun k => (l.slots[k]?).map Slot.source) placed
  rw [fed] at held
  obtain ⟨source, asked, same⟩ := List.mem_map.mp held
  obtain ⟨h, inside, asks⟩ := List.mem_filterMap.mp asked
  exact ⟨h, inside, source, asks, same.symm⟩

end

end Prepared

end PreparedSql
