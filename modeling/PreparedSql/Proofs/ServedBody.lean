import PreparedSql.Proofs.ArgumentKinds
import PreparedSql.Proofs.Compilation

/-! The statement that a server runs when it executes a prepared one. At an
execution the server reads an argument at every placeholder of the body. That
gives the statement of the query with the value of every hole in its place. Only
where a value has no literal, nothing is executed. -/
namespace PreparedSql.Prepared

/-! ### What the server reads -/

/-- The body as a server runs it: in the place of every placeholder stands the
literal of its argument. A numbered placeholder reads the argument of its
number, an anonymous one the argument after those `seen` before it. -/
def served (v : Vendor) (literals : List String) : Nat → List Part → Option String
  | _, [] => some ""
  | seen, .verbatim s :: rest => do
    let back ← served v literals seen rest
    return s ++ back
  | seen, .placeholder slot :: rest => do
    let literal ← literals[if v.numbersPlaceholders then slot else seen]?
    let back ← served v literals (seen + 1) rest
    return literal ++ back

/-- The value in the place of a hole. -/
def holeValue (params : Registry) (cleaned : CleanedArguments) : Hole → Except Failure Value
  | .literal x => .ok x
  | .element token index =>
    match params.byToken? token with
    | some p => slotValue cleaned (.element token p.name index)
    | none => .error (.unregisteredToken token)
  | .span low high => slotValue cleaned (.span low high)

/-- The literal in the place of a hole. -/
def holeText (f : Flavor) (params : Registry) (cleaned : CleanedArguments) (h : Hole) :
    Except Failure String :=
  holeValue params cleaned h >>= f.literal

/-- The arguments give cleaned values a value for the source. -/
def Supplied (cleaned : CleanedArguments) (source : SlotSource) : Prop :=
  ∃ x, slotValue cleaned source = .ok x

/-- The arguments are the values that feed the slots, position by position. -/
def Serves (v : Vendor) (cleaned : CleanedArguments) (l : Layout) (arguments : List Value) : Prop :=
  ∀ (j slot : Nat) (s : Slot), (positionsOf v l)[j]? = some slot → l.slots[slot]? = some s →
    ∃ x, slotValue cleaned s.source = .ok x ∧ arguments[j]? = some x

theorem holeValue_of_source {params : Registry} {cleaned : CleanedArguments} {h : Hole}
    {source : SlotSource} (fed : sourceOf? params h = some source) :
    holeValue params cleaned h = slotValue cleaned source := by
  cases h with
  | literal => cases fed
  | element token index =>
    obtain ⟨p, registered, rfl⟩ := Option.map_eq_some_iff.mp fed
    simp [holeValue, registered]
  | span low high =>
    cases fed
    rfl

section
variable {v : Vendor} {types : Types} {params : Registry} {cleaned : CleanedArguments}

/-- Writing parts only appends to a layout. -/
theorem parts_grow {ps : List Piece} {made : List Part} {l l' : Layout}
    (run : Yields (parts v types params ps) l made l') : Grows l l' := by
  induction ps generalizing l made with
  | nil =>
    obtain ⟨_, rfl⟩ := yields_pure.mp run
    exact grows_refl l
  | cons p ps ih =>
    cases p with
    | text s =>
      obtain ⟨_, _, rest, answer⟩ := yields_bind.mp run
      obtain ⟨_, rfl⟩ := yields_pure.mp answer
      exact ih rest
    | hole h =>
      obtain ⟨_, middle, wrote, run⟩ := yields_bind.mp run
      obtain ⟨_, _, rest, answer⟩ := yields_bind.mp run
      obtain ⟨_, rfl⟩ := yields_pure.mp answer
      exact grows_trans (step_grows (part_step wrote)) (ih rest)

variable {supplied : SlotSource → Prop}

/-- Writing parts keeps a layout sound. -/
theorem parts_sound {ps : List Piece} {made : List Part} {l l' : Layout}
    (supplies : Supplies params supplied) (sound : Sound params supplied l)
    (fits : ∀ h, .hole h ∈ ps → Fits params supplied h)
    (run : Yields (parts v types params ps) l made l') : Sound params supplied l' := by
  induction ps generalizing l made with
  | nil =>
    obtain ⟨_, rfl⟩ := yields_pure.mp run
    exact sound
  | cons p ps ih =>
    have fitsRest : ∀ h, .hole h ∈ ps → Fits params supplied h :=
      fun h member => fits h (List.mem_cons_of_mem _ member)
    cases p with
    | text s =>
      obtain ⟨_, _, rest, answer⟩ := yields_bind.mp run
      obtain ⟨_, rfl⟩ := yields_pure.mp answer
      exact ih sound fitsRest rest
    | hole h =>
      obtain ⟨_, middle, wrote, run⟩ := yields_bind.mp run
      obtain ⟨_, _, rest, answer⟩ := yields_bind.mp run
      obtain ⟨_, rfl⟩ := yields_pure.mp answer
      have step := part_step wrote
      exact ih (step_sound supplies sound (fits h List.mem_cons_self) step).1 fitsRest rest

/-- The argument that a placeholder reads is the value of its hole. -/
private theorem argument_of_placed {h : Hole} {l l' final : Layout} {slot seen : Nat}
    {arguments : List Value} (placed : Placed v params h l slot l') (grows : Grows l' final)
    (serves : Serves v cleaned final arguments)
    (counted : v.numbersPlaceholders = false → seen = l.positions.length) :
    ∃ x, holeValue params cleaned h = .ok x ∧
      arguments[if v.numbersPlaceholders then slot else seen]? = some x := by
  obtain ⟨source, fed, held, noted⟩ := placed
  obtain ⟨s, found, rfl⟩ := Option.map_eq_some_iff.mp held
  have kept := slot_kept grows found
  rw [holeValue_of_source fed]
  cases numbered : v.numbersPlaceholders with
  | true =>
    have inside := (List.getElem?_eq_some_iff.mp kept).1
    refine serves slot slot s ?_ kept
    simp [positionsOf, numbered, List.getElem?_range inside]
  | false =>
    obtain rfl := counted numbered
    refine serves _ slot s ?_ kept
    simp only [positionsOf, numbered, Bool.false_eq_true, ↓reduceIte]
    exact position_kept grows (noted numbered).1

/-- What the server runs is the text of the pieces with every value in place. -/
theorem served_parts {ps : List Piece} {made : List Part} {l l' final : Layout}
    {arguments : List Value} {literals : List String} (seen : Nat)
    (supplies : Supplies params (Supplied cleaned)) (sound : Sound params (Supplied cleaned) l)
    (fits : ∀ h, .hole h ∈ ps → Fits params (Supplied cleaned) h)
    (run : Yields (parts v types params ps) l made l') (grows : Grows l' final)
    (serves : Serves v cleaned final arguments)
    (written : arguments.mapM v.flavor.literal = .ok literals)
    (counted : v.numbersPlaceholders = false → seen = l.positions.length) :
    ∃ text, served v literals seen made = some text ∧
      Piece.fill (holeText v.flavor params cleaned) ps = .ok text := by
  induction ps generalizing l made seen with
  | nil =>
    obtain ⟨rfl, rfl⟩ := yields_pure.mp run
    exact ⟨"", rfl, rfl⟩
  | cons p ps ih =>
    have fitsRest : ∀ h, .hole h ∈ ps → Fits params (Supplied cleaned) h :=
      fun h member => fits h (List.mem_cons_of_mem _ member)
    cases p with
    | text s =>
      obtain ⟨rest, _, made', answer⟩ := yields_bind.mp run
      obtain ⟨rfl, rfl⟩ := yields_pure.mp answer
      obtain ⟨text, run', filled⟩ := ih seen sound fitsRest made' counted
      refine ⟨s ++ text, by simp [served, run'], ?_⟩
      simp only [Piece.fill, filled]
      rfl
    | hole h =>
      obtain ⟨p, middle, wrote, run⟩ := yields_bind.mp run
      obtain ⟨rest, _, made', answer⟩ := yields_bind.mp run
      obtain ⟨rfl, rfl⟩ := yields_pure.mp answer
      have step := part_step wrote
      obtain ⟨sound', placed⟩ := step_sound supplies sound (fits h List.mem_cons_self) step
      cases step with
      | @literal _ x front literal =>
        obtain ⟨text, run', filled⟩ := ih seen sound' fitsRest made' counted
        refine ⟨front ++ text, by simp [served, run'], ?_⟩
        simp only [Piece.fill, filled, holeText, holeValue]
        exact Outcome.bind_ok.mpr ⟨front, literal, rfl⟩
      | again | first | span =>
        have later := placed _ rfl
        obtain ⟨x, valued, read⟩ :=
          argument_of_placed later (grows_trans (parts_grow made') grows) serves counted
        obtain ⟨_, _, _, noted⟩ := later
        obtain ⟨text, run', filled⟩ := ih (seen + 1) sound' fitsRest made'
          fun anonymous => by rw [(noted anonymous).2, counted anonymous]
        obtain ⟨literal, found, spelt⟩ := (Outcome.mapM_ok written).2 _ x read
        refine ⟨literal ++ text, by simp [served, found, run'], ?_⟩
        have front : holeText v.flavor params cleaned _ = .ok literal :=
          Outcome.bind_ok.mpr ⟨x, valued, spelt⟩
        rw [Piece.fill, front, filled]
        rfl

/-! ### Executions -/

/-- A sound layout has an argument for every position. -/
theorem arguments_serve {a : Artifact} {l : Layout} (sound : Sound params (Supplied cleaned) l)
    (slots : a.slots = l.slots) (positions : a.positions = positionsOf v l) :
    ∃ arguments, a.positions.mapM (argumentAt a cleaned) = .ok arguments ∧
      Serves v cleaned l arguments := by
  have inside : ∀ i ∈ a.positions, i < a.slots.length := by
    rw [positions, slots, positionsOf]
    split
    · exact fun i member => List.mem_range.mp member
    · exact sound.positions
  let value (i : Nat) : Value :=
    match argumentAt a cleaned i with
    | .ok x => x
    | .error _ => .null
  have each : ∀ i ∈ a.positions, argumentAt a cleaned i = .ok (value i) := by
    intro i member
    obtain ⟨s, found⟩ : ∃ s, a.slots[i]? = some s :=
      ⟨_, List.getElem?_eq_getElem (inside i member)⟩
    have held : s ∈ l.slots := by
      rw [← slots]
      exact List.mem_of_getElem? found
    obtain ⟨x, fed⟩ := sound.slots s held
    simp only [value, argumentAt, found, fed]
  refine ⟨a.positions.map value, Outcome.mapM_each each, ?_⟩
  intro j slot s position held
  rw [← positions] at position
  rw [← slots] at held
  have fed := each slot (List.mem_of_getElem? position)
  simp only [argumentAt, held] at fed
  exact ⟨value slot, fed, by simp [position]⟩

/-- An execution has its arguments and their literals. -/
theorem execution_eq {a : Artifact} {arguments : List Value}
    (computed : a.positions.mapM (argumentAt a cleaned) = .ok arguments) :
    execution v a cleaned = (arguments.mapM v.flavor.literal).map fun literals =>
      { setup := v.setup? literals
        cleanup := v.cleanup? arguments.length
        statement := v.execute a.name literals
        arguments := arguments } := by
  rw [execution, computed]
  show (arguments.mapM v.flavor.literal >>= _) = _
  cases arguments.mapM v.flavor.literal <;> rfl

/-- Executed with the cleaned values, the artifact of a query has the server run
the text: the body is made of parts, the execution succeeds, and the literals of its
arguments, as they stand in the statement or are staged before it, fill the placeholders. -/
def RunsAs (v : Vendor) (types : Types) (q : Query) (a : Artifact) (cleaned : CleanedArguments)
    (text : String) : Prop :=
  ∃ ps l e literals, Yields (parts v types q.params (pieces v q)) {} ps l ∧
    a.body = bodyOf v ps ∧ execution v a cleaned = .ok e ∧
    e.arguments.mapM v.flavor.literal = .ok literals ∧ e.statement = v.execute a.name literals ∧
    e.setup = v.setup? literals ∧ served v literals 0 ps = some text

/-- Cleaned values that are as many as each parameter has elements supply every
element. -/
theorem supplies_of_sized
    (sized : ∀ p ∈ params.params, (valuesOf cleaned p.name).length = p.slots) :
    Supplies params (Supplied cleaned) := by
  intro p member index inside
  rw [← sized p member] at inside
  refine ⟨(valuesOf cleaned p.name)[index], ?_⟩
  simp only [slotValue, List.getElem?_eq_getElem inside]

/-- Nothing is executed with the values, for one of them has no literal. -/
structure Unwritable (v : Vendor) (q : Query) (a : Artifact) (cleaned : CleanedArguments) :
    Prop where
  /-- A value of a parameter leaves the calendar at UTC. -/
  value : ∃ p ∈ q.params.params, ∃ x ∈ valuesOf cleaned p.name, x.inCalendar = false
  /-- No arguments are accepted as these values. -/
  unaccepted : ∀ types as, q.params.cleanArguments types as ≠ .ok cleaned
  fails : execution v a cleaned = .error (.conversion .outsideCalendar)

theorem not_unwritable {q : Query} {a : Artifact}
    (inside : ∀ p ∈ q.params.params, ∀ x ∈ valuesOf cleaned p.name, x.inCalendar = true) :
    ¬ Unwritable v q a cleaned := by
  intro unwritable
  obtain ⟨p, member, x, held, outside⟩ := unwritable.value
  rw [inside p member x held] at outside
  cases outside

/-- The source is an element of a registered parameter, or a number of rows. -/
private def Owned (params : Registry) : SlotSource → Prop
  | .element _ name _ => ∃ p ∈ params.params, p.name = name
  | .span _ _ => True

private theorem owned_elements : Supplies params (Owned params) :=
  fun p member _ _ => ⟨p, member, rfl⟩

private theorem fits_owned {h : Hole} (fits : Fits params (Supplied cleaned) h) :
    Fits params (Owned params) h := by
  cases h with
  | literal => exact fits
  | element => exact fits
  | span => trivial

/-- An argument that leaves the calendar is a value of a parameter. -/
private theorem value_of_argument {a : Artifact} {l : Layout} {arguments : List Value} {x : Value}
    (sound : Sound params (Owned params) l) (slots : a.slots = l.slots)
    (computed : a.positions.mapM (argumentAt a cleaned) = .ok arguments) (member : x ∈ arguments)
    (outside : x.inCalendar = false) :
    ∃ p ∈ params.params, ∃ y ∈ valuesOf cleaned p.name, y.inCalendar = false := by
  obtain ⟨i, _, fed⟩ := Outcome.mem_of_mapM computed x member
  unfold argumentAt at fed
  split at fed
  · cases fed
  · next slot held =>
    rw [slots] at held
    have owned := sound.slots slot (List.mem_of_getElem? held)
    cases source : slot.source with
    | element token name index =>
      rw [source] at owned fed
      obtain ⟨p, registered, rfl⟩ := owned
      simp only [slotValue] at fed
      split at fed
      · next found =>
        cases fed
        exact ⟨p, registered, _, List.mem_of_getElem? found, outside⟩
      · cases fed
    | span low high =>
      rw [source] at fed
      obtain ⟨_, _, rest⟩ := Outcome.bind_ok.mp fed
      obtain ⟨_, _, answer⟩ := Outcome.bind_ok.mp rest
      cases answer
      cases outside

/-- An artifact runs as the statement of its query with every value in place, unless one of the
values has no literal. -/
theorem runsAs_fill {q : Query} {a : Artifact} {types types' : Types} {j j' : Journal}
    (compiled : (compile v q).exec types j = ((.ok a, types'), j'))
    (sized : ∀ p ∈ q.params.params, (valuesOf cleaned p.name).length = p.slots)
    (fits : ∀ h, .hole h ∈ pieces v q → Fits q.params (Supplied cleaned) h) :
    (∃ text, RunsAs v types' q a cleaned text ∧
      Piece.fill (holeText v.flavor q.params cleaned) (pieces v q) = .ok text) ∨
    Unwritable v q a cleaned := by
  obtain ⟨ps, l, run, body, slots, positions⟩ := write_ok (compile_ok_iff.mp ⟨_, compiled⟩).2.2
  have supplies := supplies_of_sized sized
  have start := sound_empty q.params (Supplied cleaned)
  have sound := parts_sound supplies start fits run
  obtain ⟨arguments, computed, serves⟩ := arguments_serve sound slots positions
  have executed := execution_eq (v := v) computed
  cases written : arguments.mapM v.flavor.literal with
  | ok literals =>
    rw [written] at executed
    obtain ⟨text, runs, filled⟩ :=
      served_parts 0 supplies start fits run (grows_refl l) serves written fun _ => rfl
    exact .inl ⟨text, ⟨ps, l, _, literals, run, body, executed, written, rfl, rfl, runs⟩, filled⟩
  | error failure =>
    obtain ⟨x, member, unwritten⟩ := Outcome.mapM_error written
    obtain ⟨rfl, gone⟩ := Flavor.outside_of_unwritten unwritten
    have owned := parts_sound owned_elements (sound_empty q.params (Owned q.params))
      (fun h asked => fits_owned (fits h asked)) run
    have outside := value_of_argument owned slots computed member gone
    refine .inr ⟨outside, fun types as accepted => ?_, ?_⟩
    · obtain ⟨p, _, x, held, gone⟩ := outside
      rw [Registry.inCalendar_of_accepted accepted p.name x held] at gone
      cases gone
    · rw [executed, written]
      rfl

end

end PreparedSql.Prepared
