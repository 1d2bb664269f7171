import PreparedSql.Proofs.ArgumentKinds
import PreparedSql.Proofs.LiteralExecution
import PreparedSql.Proofs.SlotLayout
import PreparedSql.Proofs.StatementNames

/-! The layout of a compiled query. Body, slots, positions and the types of the
arguments fit each other: every placeholder belongs to the slot that feeds it,
and every argument of an execution is of the kind that the database was told. -/
namespace PreparedSql.Prepared

open Piece

/-- An artifact is laid out consistently. The parts are those of its body, and
`issued` is the parameter of a token. -/
structure LaidOut (issued : String → Param) (v : Vendor) (types : Types) (q : Query)
    (a : Artifact) (ps : List Part) : Prop where
  body : a.body = bodyOf v ps
  statement : a.statement = v.prepare a.name (argumentTypes a) a.body
  /-- Every position names a slot. -/
  inside : ∀ position ∈ a.positions, position < a.slots.length
  /-- The slots of a parameter are one run from a base on, an element in each. -/
  run : ∀ token index, .hole (.element token index) ∈ pieces v q →
    ∃ base, ∀ k name i, (a.slots[k]?).map Slot.source = some (.element token name i) ↔
      name = (issued token).name ∧ i < (issued token).slots ∧ k = base + i
  /-- No parameter comes twice in the order, and the names are aligned with it. -/
  order : a.order.Nodup
  names : a.names = a.order.map fun token => (issued token).name
  /-- The placeholders belong, one after the other, to slots that feed the open
  holes of the statement. -/
  feeds : (placeholders ps).map (fun k => (a.slots[k]?).map Slot.source) =
    ((holes (pieces v q)).filterMap (sourceOf? q.params)).map some
  /-- Numbers are first met in order, and none is left out. -/
  numbered : v.numbersPlaceholders = true →
    (placeholders ps).eraseDups = List.range a.slots.length ∧
      a.positions = List.range a.slots.length
  /-- Anonymous placeholders and positions are one to one. -/
  anonymous : v.numbersPlaceholders = false → placeholders ps = a.positions
  /-- The arguments of an execution are of the kinds that carry the types. -/
  arguments : ∀ types' as cleaned e,
    (∀ p ∈ q.params.params, types'.fieldType? p = types.fieldType? p) →
    q.params.cleanArguments types' as = .ok cleaned → execution v a cleaned = .ok e →
    e.arguments.length = (argumentTypes a).length ∧
      ∀ (i : Nat) x t, e.arguments[i]? = some x → (argumentTypes a)[i]? = some t →
        x.prototype = t.valuePrototype

section
variable {v : Vendor} {types types' : Types} {params : Registry} {a : Artifact}
  {cleaned : CleanedArguments}

/-- What feeds a slot is of the kind that carries the type of the slot. -/
private theorem kind_of_slot {as : Arguments} {s : Slot} {x : Value}
    (slot : Slot.Typed types params s)
    (typed : ∀ p ∈ params.params, types.fieldType? p ≠ none)
    (kept : ∀ p ∈ params.params, types'.fieldType? p = types.fieldType? p)
    (distinct : params.names.Nodup) (accepted : params.cleanArguments types' as = .ok cleaned)
    (fed : slotValue cleaned s.source = .ok x) : x.prototype = s.fieldType.valuePrototype := by
  rcases slot with ⟨p, member, index, source, fieldType⟩ | ⟨low, high, rfl⟩
  · obtain ⟨t, known⟩ := Option.ne_none_iff_exists'.mp (typed p member)
    obtain ⟨_, _, clean⟩ := Registry.cleaned_of_accepted distinct accepted member
    have kinds := Param.prototype_of_clean ((kept p member).trans known) clean
    have held : (valuesOf cleaned p.name)[index]? = some x := by
      rw [source, slotValue] at fed
      split at fed
      · next found =>
        cases fed
        exact found
      · cases fed
    rw [kinds x (List.mem_of_getElem? held), fieldType, known, Option.map_some, Option.getD_some,
      FieldType.valuePrototype_bindType]
  · obtain ⟨_, _, rest⟩ := Outcome.bind_ok.mp fed
    obtain ⟨_, _, answer⟩ := Outcome.bind_ok.mp rest
    cases answer
    rfl

/-- When every position names a slot, the types of the arguments are those of
the slots, one by one. -/
private theorem argumentTypes_eq (inside : ∀ i ∈ a.positions, i < a.slots.length) :
    (argumentTypes a).map some = a.positions.map fun i => a.slots[i]?.map Slot.fieldType := by
  unfold argumentTypes
  generalize a.positions = positions at inside ⊢
  induction positions with
  | nil => rfl
  | cons i rest ih =>
    have bounded := inside i List.mem_cons_self
    have others := ih fun k member => inside k (List.mem_cons_of_mem _ member)
    rw [List.filterMap_cons, List.getElem?_eq_getElem bounded]
    simp only [Option.map_some, List.map_cons, others, List.getElem?_eq_getElem bounded]

private theorem arguments_kinds {as : Arguments} {e : Execution}
    (slots : ∀ s ∈ a.slots, Slot.Typed types params s)
    (inside : ∀ i ∈ a.positions, i < a.slots.length)
    (typed : ∀ p ∈ params.params, types.fieldType? p ≠ none)
    (kept : ∀ p ∈ params.params, types'.fieldType? p = types.fieldType? p)
    (distinct : params.names.Nodup) (accepted : params.cleanArguments types' as = .ok cleaned)
    (executed : execution v a cleaned = .ok e) :
    e.arguments.length = (argumentTypes a).length ∧
      ∀ (i : Nat) x t, e.arguments[i]? = some x → (argumentTypes a)[i]? = some t →
        x.prototype = t.valuePrototype := by
  obtain ⟨arguments, mapped, rest⟩ := Outcome.bind_ok.mp executed
  obtain ⟨_, _, answer⟩ := Outcome.bind_ok.mp rest
  cases answer
  obtain ⟨length, each⟩ := Outcome.mapM_ok mapped
  have aligned := argumentTypes_eq inside
  refine ⟨?_, fun i x t supplied declared => ?_⟩
  · have counted := congrArg List.length aligned
    simp only [List.length_map] at counted
    rw [length, counted]
  · have bounded : i < a.positions.length := by
      rw [← length]
      exact (List.getElem?_eq_some_iff.mp supplied).1
    have position := List.getElem?_eq_getElem bounded
    obtain ⟨_, same, fed⟩ := each i _ position
    obtain rfl := Option.some.inj (supplied.symm.trans same)
    have slot := List.getElem?_eq_getElem (inside _ (List.getElem_mem bounded))
    have looked := congrArg (·[i]?) aligned
    simp only [List.getElem?_map, declared, position, slot, Option.map_some, Option.some.injEq]
      at looked
    rw [argumentAt, slot] at fed
    rw [looked]
    exact kind_of_slot (slots _ (List.mem_of_getElem? slot)) typed kept distinct accepted fed

/-- A parameter that is met owns one run of slots. -/
private theorem run_of_sound {issued : String → Param} {l : Layout} {base : Nat} {token : String}
    (registry : ∀ p ∈ params.params, issued p.token = p) (sound : Sound params (fun _ => True) l)
    (exclusive : Exclusive params l) (known : l.base? token = some base) (k : Nat) (name : String)
    (i : Nat) : (l.slots[k]?).map Slot.source = some (.element token name i) ↔
      name = (issued token).name ∧ i < (issued token).slots ∧ k = base + i := by
  obtain ⟨p, registered, run⟩ := sound.run token base known
  obtain ⟨member, rfl⟩ := byToken?_some registered
  rw [registry p member]
  constructor
  · intro held
    obtain ⟨base', p', known', registered', rfl, inside, rfl⟩ := exclusive k _ name i held
    obtain rfl := Option.some.inj (known.symm.trans known')
    obtain rfl := Option.some.inj (registered.symm.trans registered')
    exact ⟨rfl, inside, rfl⟩
  · rintro ⟨rfl, inside, rfl⟩
    exact run i inside

end

section
variable {v : Vendor} {q : Query} {a : Artifact} {types types' : Types} {j j' : Journal}
  {issued : String → Param}

/-- What a compilation answers is laid out consistently. -/
theorem artifact_laidOut (known : q.Issued issued) (distinct : q.params.names.Nodup)
    (compiled : (compile v q).exec types j = ((.ok a, types'), j')) :
    ∃ ps l, Yields (parts v types' q.params (pieces v q)) {} ps l ∧
      LaidOut issued v types' q a ps := by
  obtain ⟨_, typed, written⟩ := compile_ok_iff.mp ⟨_, compiled⟩
  obtain ⟨ps, l, yielded, made⟩ := write_made written
  have identified := Query.identified_of_issued known
  have registry : ∀ p ∈ q.params.params, issued p.token = p := fun p member => known p (.inr member)
  have steps := steps_of_parts yielded
  have fits := fits_holes v identified
  have start := sound_empty q.params fun _ => True
  have sound := steps_sound start fits steps
  have exclusive : Exclusive q.params l :=
    steps_exclusive (fun k _ _ _ held => by simp at held) steps
  have slots : ∀ s ∈ a.slots, Slot.Typed types' q.params s := by
    rw [made.slots]
    exact steps_typed (by simp) steps
  have noted : Noted issued l :=
    (steps_noted registry (issued_pieces known)
      ⟨List.nodup_nil, rfl, fun _ _ met => by simp [Layout.base?] at met⟩ steps).1
  have covers := covers_pieces identified steps
  have inside : ∀ position ∈ a.positions, position < a.slots.length := by
    rw [made.positions, made.slots, positionsOf]
    split
    · exact fun i member => List.mem_range.mp member
    · exact sound.positions
  refine ⟨ps, l, yielded, ?_⟩
  exact {
    body := made.body
    statement := (write_statement written).2
    inside := inside
    run := by
      intro token index asked
      obtain ⟨base, met⟩ := base_of_asked (mem_holes.mpr asked) steps
      rw [made.slots]
      exact ⟨base, run_of_sound registry sound exclusive met⟩
    order := by rw [made.order]; exact noted.order
    names := by rw [made.names, made.order]; exact noted.names
    feeds := by rw [made.slots]; exact sources_of_steps start fits steps
    numbered := by
      intro numbers
      rw [made.positions, made.slots, positionsOf, if_pos numbers]
      exact ⟨covers, rfl⟩
    anonymous := by
      intro anonymous
      rw [made.positions, positionsOf, anonymous]
      exact (positions_of_steps anonymous steps).symm
    arguments := fun _ _ _ _ kept accepted executed =>
      arguments_kinds slots inside typed kept distinct accepted executed }

end

section
open Library

/-- A page of the authors of a name or with one of two keys. -/
def pageOfNameOrKeys : Query :=
  let skip := Param.scalar "s" "skip"
  let stop := Param.scalar "e" "stop"
  { nameOrKeys with
    low := .param skip
    high := some (.param stop)
    params := ⟨nameOrKeys.params.params ++ [skip, stop]⟩ }

/-- The registered parameter of a token. -/
def registeredAs (r : Registry) (token : String) : Param :=
  (r.byToken? token).getD (.scalar token token)

/-- One key for two places, and the rows from the eleventh to the twentieth. -/
def olgaOrKeyPage : Arguments :=
  ⟨[("name", .value (.varchar (some "Olga Tokarczuk"))),
    ("keys", .value (.list (some [.int .int32 (some (Ranged.clamp .int32 1))]) (.int .int32 none))),
    ("skip", .value (.int .int64 (some (Ranged.clamp .int64 10)))),
    ("stop", .value (.int .int64 (some (Ranged.clamp .int64 20))))]⟩

theorem pageOfNameOrKeys_laidOut : ∃ a types' ps cleaned e,
    LaidOut (registeredAs pageOfNameOrKeys.params) .mysql types' pageOfNameOrKeys a ps ∧
      pageOfNameOrKeys.params.cleanArguments types' olgaOrKeyPage = .ok cleaned ∧
      execution .mysql a cleaned = .ok e ∧ e.arguments.length = (argumentTypes a).length := by
  have leaves : ∀ p, .param p ∈ pageOfNameOrKeys.leaves → p ∈ pageOfNameOrKeys.params.params := by
    simp [pageOfNameOrKeys, nameOrKeys, Query.leaves, Query.frontLeaves, Query.expressions,
      Expr.leaves, Bound.leaves]
  have registered : ∀ p, .param p ∈ pageOfNameOrKeys.leaves →
      ∃ r, pageOfNameOrKeys.params.byToken? p.token = some r := by
    intro p occurs
    have found : ∀ p ∈ pageOfNameOrKeys.params.params,
        pageOfNameOrKeys.params.byToken? p.token = some p := by
      decide
    exact ⟨p, found p (leaves p occurs)⟩
  have known : pageOfNameOrKeys.Issued (registeredAs pageOfNameOrKeys.params) := by
    have own : ∀ p ∈ pageOfNameOrKeys.params.params,
        registeredAs pageOfNameOrKeys.params p.token = p := by
      decide
    rintro p (occurs | member)
    · exact own p (leaves p occurs)
    · exact own p member
  obtain ⟨types', walked, typed, cleaned, accepted, sized, rows⟩ : ∃ types',
      (pageOfNameOrKeys.walk resolver).exec .empty [] = ((.ok (), types'), []) ∧
      (∀ p ∈ pageOfNameOrKeys.params.params, types'.fieldType? p ≠ none) ∧ ∃ cleaned,
      pageOfNameOrKeys.params.cleanArguments types' olgaOrKeyPage = .ok cleaned ∧
      (∀ p ∈ pageOfNameOrKeys.params.params, (valuesOf cleaned p.name).length = p.slots) ∧
      ∀ b ∈ pageOfNameOrKeys.high, Supplied cleaned (.span pageOfNameOrKeys.low b) := by
    refine ⟨_, rfl, by decide, _, rfl, by decide, ?_⟩
    rintro _ ⟨⟩
    exact ⟨_, rfl⟩
  obtain ⟨a, j', compiled⟩ := compile_total (v := .mysql) registered rfl walked typed
  obtain ⟨ps, _, _, laid⟩ := artifact_laidOut known (by decide) compiled
  obtain ⟨_, ⟨_, _, e, _, _, _, executed, _⟩, _⟩ :=
    (runsAs_fill compiled sized (fits_pieces (Query.identified_of_issued known) rows)).resolve_right
      fun unwritable => unwritable.unaccepted _ _ accepted
  exact ⟨a, types', ps, cleaned, e, laid, accepted, executed,
    (laid.arguments types' olgaOrKeyPage cleaned e (fun _ _ => rfl) accepted executed).1⟩

end

end PreparedSql.Prepared
