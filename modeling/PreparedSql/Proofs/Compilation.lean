import PreparedSql.Proofs.BodyLayout
import PreparedSql.Proofs.WritableLiterals

/-! What a compilation takes and leaves. A query compiles exactly when its walk
settles a type for every registered parameter and its body is written. With the
tokens of all holes registered, the body is written just when the calendar has all
literals. -/
namespace PreparedSql.Prepared

/-! ### The parts of a body -/

/-- The parts that pieces become, one after the other. -/
def parts (v : Vendor) (types : Types) (params : Registry) : List Piece → Filling (List Part)
  | [] => pure []
  | .text s :: rest => do
    let ps ← parts v types params rest
    return .verbatim s :: ps
  | .hole h :: rest => do
    let p ← part v types params h
    let ps ← parts v types params rest
    return p :: ps

/-- Parts written one after the other. -/
def bodyOf (v : Vendor) : List Part → String
  | [] => ""
  | p :: ps => p.text v ++ bodyOf v ps

theorem fill_filling (v : Vendor) (types : Types) (params : Registry) (ps : List Piece) :
    Piece.fill (filling v types params) ps = bodyOf v <$> parts v types params ps := by
  induction ps with
  | nil => simp [Piece.fill, parts, bodyOf]
  | cons p ps ih =>
    cases p with
    | text s => simp [Piece.fill, parts, bodyOf, ih, Part.text]
    | hole h => simp [Piece.fill, parts, bodyOf, ih, filling]

/-- The slot that feeds each argument of an execution. -/
def positionsOf (v : Vendor) (l : Layout) : List Nat :=
  if v.numbersPlaceholders then List.range l.slots.length else l.positions

/-- The pieces of the statement of a query. -/
def pieces (v : Vendor) (q : Query) : List Piece :=
  v.flavor.select (q.selection q.projection)

/-- The statement of a query is filled with the parts of its pieces. -/
theorem fill_select (v : Vendor) (types : Types) (q : Query) :
    (q.selectTemplate v.flavor).fill (filling v types q.params) =
      bodyOf v <$> parts v types q.params (pieces v q) := by
  rw [Query.selectTemplate, Template.fill_ofPieces, fill_filling, pieces]

section
variable {v : Vendor} {types types' : Types} {params : Registry}

/-- The artifact was put together from the parts of its body and their layout. -/
structure MadeOf (v : Vendor) (a : Artifact) (ps : List Part) (l : Layout) : Prop where
  body : a.body = bodyOf v ps
  order : a.order = l.order
  names : a.names = l.names
  slots : a.slots = l.slots
  positions : a.positions = positionsOf v l

/-- What is written is made of the parts of the statement. -/
theorem write_made {v : Vendor} {types : Types} {q : Query} {a : Artifact}
    (written : write v types q = .ok a) :
    ∃ ps l, Yields (parts v types q.params (pieces v q)) {} ps l ∧ MadeOf v a ps l := by
  rw [write, fill_select] at written
  cases run : (bodyOf v <$> parts v types q.params (pieces v q)).run {} with
  | mk outcome l =>
    cases outcome with
    | error failure =>
      simp only [run] at written
      cases written
    | ok body =>
      simp only [run] at written
      cases written
      have yielded : Yields (bodyOf v <$> parts v types q.params (pieces v q)) {} body l := run
      rw [map_eq_pure_bind] at yielded
      obtain ⟨ps, _, made, answer⟩ := yields_bind.mp yielded
      obtain ⟨rfl, rfl⟩ := yields_pure.mp answer
      exact ⟨ps, _, made, rfl, rfl, rfl, rfl, rfl⟩

/-- The body of an artifact is made of parts, and their layout is the artifact's. -/
theorem write_ok {v : Vendor} {types : Types} {q : Query} {a : Artifact}
    (written : write v types q = .ok a) :
    ∃ ps l, Yields (parts v types q.params (pieces v q)) {} ps l ∧ a.body = bodyOf v ps ∧
      a.slots = l.slots ∧ a.positions = positionsOf v l := by
  obtain ⟨ps, l, yielded, made⟩ := write_made written
  exact ⟨ps, l, yielded, made.body, made.slots, made.positions⟩

/-! ### Bodies that are written -/

/-- The token of a hole, if it has one, is registered. -/
def Registered (params : Registry) : Hole → Prop
  | .element token _ => ∃ p, params.byToken? token = some p
  | _ => True

/-- What has slots has been registered. -/
def Known (params : Registry) (l : Layout) : Prop :=
  ∀ token base, l.base? token = some base → ∃ p, params.byToken? token = some p

private theorem known_of_bases {l l' : Layout} (known : Known params l) (same : l'.bases = l.bases) :
    Known params l' := by
  intro token base held
  rw [Layout.base?, same] at held
  exact known token base held

/-- A hole is written when its token, if it has one, is registered. -/
theorem registered_of_step {h : Hole} {made : Part} {l l' : Layout} (known : Known params l)
    (step : Step v types params h l made l') : Registered params h ∧ Known params l' := by
  cases step with
  | literal => exact ⟨trivial, known_of_bases known rfl⟩
  | again index held => exact ⟨known _ _ held, known_of_bases known (bases_used _ _ _)⟩
  | @first _ _ p index _ registered =>
    refine ⟨⟨p, registered⟩, known_of_bases (l := l.opened types p) ?_ (bases_used _ _ _)⟩
    intro other base held
    rw [Layout.base?, Layout.opened, bases_met, List.find?_append] at held
    cases before : l.bases.find? (·.1 == other) with
    | some entry => exact known other entry.2 (by rw [Layout.base?, before]; rfl)
    | none =>
      rw [before, Option.none_or] at held
      obtain ⟨entry, found, _⟩ := Option.map_eq_some_iff.mp held
      have own := List.find?_some found
      have member := List.mem_singleton.mp (List.mem_of_find?_eq_some found)
      rw [member] at own
      obtain ⟨_, token'⟩ := byToken?_some registered
      refine ⟨p, ?_⟩
      rw [← beq_iff_eq.mp own, token']
      exact registered
  | span low high =>
    refine ⟨trivial, known_of_bases known ?_⟩
    rw [bases_used, Layout.openedSpan, bases_metBound, bases_metBound]

/-- Parts are made of nothing but registered tokens. -/
theorem registered_of_parts {ps : List Piece} {made : List Part} {l l' : Layout}
    (known : Known params l) (run : Yields (parts v types params ps) l made l') :
    ∀ h ∈ Piece.holes ps, Registered params h := by
  induction ps generalizing l made with
  | nil => exact fun h none => nomatch none
  | cons p ps ih =>
    cases p with
    | text s =>
      obtain ⟨_, _, rest, answer⟩ := yields_bind.mp run
      obtain ⟨_, rfl⟩ := yields_pure.mp answer
      exact ih known rest
    | hole h =>
      obtain ⟨_, middle, wrote, run⟩ := yields_bind.mp run
      obtain ⟨_, _, rest, answer⟩ := yields_bind.mp run
      obtain ⟨_, rfl⟩ := yields_pure.mp answer
      obtain ⟨registered, known'⟩ := registered_of_step known (part_step wrote)
      exact List.forall_mem_cons.mpr ⟨registered, ih known' rest⟩

/-- The tokens of a body that is written are registered. -/
theorem registered_of_written {q : Query} {a : Artifact} (written : write v types q = .ok a) :
    ∀ h ∈ Piece.holes (pieces v q), Registered q.params h := by
  obtain ⟨_, _, run, _⟩ := write_made written
  refine registered_of_parts (fun token base held => ?_) run
  cases held

private theorem baseOf_total (types : Types) {token : String} {p : Param} (l : Layout)
    (registered : params.byToken? token = some p) :
    ∃ base l', Yields (baseOf types params token) l base l' := by
  cases known : l.base? token with
  | some base =>
    refine ⟨base, l, yields_bind.mpr ⟨l, l, yields_get.mpr ⟨rfl, rfl⟩, ?_⟩⟩
    simp only [known]
    exact yields_pure.mpr ⟨rfl, rfl⟩
  | none =>
    refine ⟨l.slots.length, l.opened types p,
      yields_bind.mpr ⟨l, l, yields_get.mpr ⟨rfl, rfl⟩, ?_⟩⟩
    simp only [known, registered]
    exact yields_bind.mpr ⟨⟨⟩, _, yields_set.mpr rfl, yields_pure.mpr ⟨rfl, rfl⟩⟩

private theorem place_total (v : Vendor) (l : Layout) (slot : Nat) :
    ∃ p l', Yields (place v slot) l p l' :=
  ⟨_, _, yields_bind.mpr ⟨⟨⟩, _, yields_modify.mpr rfl, yields_pure.mpr ⟨rfl, rfl⟩⟩⟩

variable {α β : Type} {f : Filling α} {g : α → Filling β} {l : Layout} {inside inside' : Prop}

private theorem writtenWhen_run_bind (first : WrittenWhen inside (f.run.run l).1)
    (rest : ∀ x l', Yields f l x l' → WrittenWhen inside' ((g x).run.run l').1) :
    WrittenWhen (inside ∧ inside') ((f >>= g).run.run l).1 := by
  rw [run_bind]
  rcases ran : f.run.run l with ⟨failure | x, middle⟩
  · rw [ran] at first
    cases first with
    | outside fails => exact .outside fun both => fails both.1
  · rw [ran] at first
    have holds := holds_of_written first rfl
    exact writtenWhen_congr (and_iff_right holds).symm (rest x middle ran)

private theorem writtenWhen_of_yields (yields : ∃ x l', Yields f l x l') :
    WrittenWhen True (f.run.run l).1 := by
  obtain ⟨x, l', run⟩ := yields
  rw [Yields] at run
  rw [run]
  exact writtenWhen_ok x

private theorem writtenWhen_ofExcept {outcome : Except Failure α}
    (writes : WrittenWhen inside outcome) :
    WrittenWhen inside ((MonadExcept.ofExcept outcome : Filling α).run.run l).1 := by
  cases writes with
  | written holds x => exact .written holds x
  | outside fails => exact .outside fails

private theorem writtenWhen_part (v : Vendor) (types : Types) {h : Hole} (l : Layout)
    (registered : Registered params h) :
    WrittenWhen (h.inCalendar = true) ((part v types params h).run.run l).1 := by
  cases h with
  | literal x =>
    refine writtenWhen_congr (and_iff_left trivial) (writtenWhen_run_bind
      (writtenWhen_ofExcept (v.flavor.writtenWhen_literal x)) fun text l' _ => ?_)
    exact writtenWhen_of_yields ⟨_, _, yields_bind.mpr ⟨⟨⟩, _, yields_modify.mpr rfl,
      yields_pure.mpr ⟨rfl, rfl⟩⟩⟩
  | element token index =>
    obtain ⟨p, registered⟩ := registered
    obtain ⟨base, middle, based⟩ := baseOf_total types l registered
    obtain ⟨part, l', placed⟩ := place_total v middle (base + index)
    exact writtenWhen_congr (iff_of_true trivial rfl)
      (writtenWhen_of_yields ⟨part, l', yields_bind.mpr ⟨base, middle, based, placed⟩⟩)
  | span low high =>
    obtain ⟨part, l', placed⟩ := place_total v (l.openedSpan low high)
      ((l.metBound low).metBound high).slots.length
    refine writtenWhen_congr (iff_of_true trivial rfl) (writtenWhen_of_yields
      ⟨part, l', yields_bind.mpr ⟨l, l, yields_get.mpr ⟨rfl, rfl⟩, ?_⟩⟩)
    exact yields_bind.mpr ⟨⟨⟩, _, yields_modify.mpr rfl, placed⟩

/-- The parts are made just when the calendar has the literals among them. -/
theorem writtenWhen_parts (v : Vendor) (types : Types) {ps : List Piece} (l : Layout)
    (registered : ∀ h ∈ Piece.holes ps, Registered params h) :
    WrittenWhen (∀ h ∈ Piece.holes ps, h.inCalendar = true)
      ((parts v types params ps).run.run l).1 := by
  have adds {part : Part} {made : List Part} (l : Layout) :
      WrittenWhen True ((pure (part :: made) : Filling (List Part)).run.run l).1 :=
    writtenWhen_of_yields ⟨_, _, yields_pure.mpr ⟨rfl, rfl⟩⟩
  induction ps generalizing l with
  | nil => exact .written (fun _ none => nomatch none) []
  | cons p ps ih =>
    cases p with
    | text s =>
      exact writtenWhen_congr (and_iff_left trivial)
        (writtenWhen_run_bind (ih l registered) fun _ l' _ => adds l')
    | hole h =>
      rw [Piece.holes_hole, List.forall_mem_cons] at registered ⊢
      refine writtenWhen_run_bind (writtenWhen_part v types l registered.1) fun part middle _ => ?_
      exact writtenWhen_congr (and_iff_left trivial)
        (writtenWhen_run_bind (ih middle registered.2) fun _ l' _ => adds l')

/-- When the parts are made, the artifact is made of them. -/
theorem write_of_parts {q : Query} {ps : List Part} {l : Layout}
    (made : Yields (parts v types q.params (pieces v q)) {} ps l) :
    ∃ a, write v types q = .ok a ∧ a.body = bodyOf v ps ∧ a.slots = l.slots ∧
      a.positions = positionsOf v l := by
  have yielded : Yields (bodyOf v <$> parts v types q.params (pieces v q)) {} (bodyOf v ps) l := by
    rw [map_eq_pure_bind]
    exact yields_bind.mpr ⟨ps, l, made, yields_pure.mpr ⟨rfl, rfl⟩⟩
  have ran : (bodyOf v <$> parts v types q.params (pieces v q)).run {} =
      (.ok (bodyOf v ps), l) := yielded
  rw [write, fill_select]
  simp only [ran]
  exact ⟨_, rfl, rfl, rfl, rfl⟩

/-- A body whose tokens are registered is written just when the calendar has its literals. -/
theorem writtenWhen_write (v : Vendor) (types : Types) {q : Query}
    (registered : ∀ h ∈ Piece.holes (pieces v q), Registered q.params h) :
    WrittenWhen (∀ h ∈ Piece.holes (pieces v q), h.inCalendar = true) (write v types q) := by
  have writes := writtenWhen_parts v types {} registered
  rcases run : (parts v types q.params (pieces v q)).run.run {} with ⟨failure | ps, l⟩
  · rw [run] at writes
    have failed : (bodyOf v <$> parts v types q.params (pieces v q)).run {} =
        (.error failure, l) := by
      rw [map_eq_pure_bind]
      show (parts v types q.params (pieces v q) >>= _).run.run {} = _
      rw [run_bind, run]
    rw [write, fill_select]
    simp only [failed]
    cases writes with
    | outside fails => exact .outside fails
  · rw [run] at writes
    obtain ⟨a, written, _⟩ := write_of_parts run
    rw [written]
    exact .written (holds_of_written writes rfl) a

/-! ### Queries that compile -/

/-- A compilation walks, looks for a parameter without a type, and writes the body. -/
theorem exec_compile (v : Vendor) (q : Query) (types : Types) (j : Journal) :
    (compile v q).exec types j = match (q.walk resolver).exec types j with
      | ((.error failure, types'), j') => ((.error failure, types'), j')
      | ((.ok _, types'), j') =>
        match q.params.params.find? fun p => (types'.fieldType? p).isNone with
        | some p => ((.error (.missingParameterType p.name), types'), j')
        | none => match write v types' q with
          | .error failure => ((.error failure, types'), j')
          | .ok a => ((.ok a, types'), j' ++ [⟨.debug, "Compiled `" ++ a.name ++ "` for " ++ v.name
              ++ ": " ++ Text.truncated a.statement⟩]) := by
  rw [compile, Action.exec_bind]
  rcases (q.walk resolver).exec types j with ⟨⟨failure | _, types'⟩, j'⟩
  · rfl
  · simp only [Action.exec_bind, Action.exec_get]
    cases q.params.params.find? fun p => (types'.fieldType? p).isNone with
    | some p => rfl
    | none => cases write v types' q <;> rfl

/-- The types that a compilation leaves are those that its walk leaves. -/
theorem types_of_compile (v : Vendor) (q : Query) (types : Types) (j : Journal) :
    ((compile v q).exec types j).1.2 = ((q.walk resolver).exec types j).1.2 := by
  rw [exec_compile]
  rcases (q.walk resolver).exec types j with ⟨⟨failure | _, types'⟩, j'⟩
  · rfl
  · dsimp only
    split
    · rfl
    · split <;> rfl

/-- A query compiles when its walk types every parameter and its body is written. -/
theorem compile_ok_iff {q : Query} {a : Artifact} {j : Journal} :
    (∃ j', (compile v q).exec types j = ((.ok a, types'), j')) ↔
      (∃ j', (q.walk resolver).exec types j = ((.ok (), types'), j')) ∧
        (∀ p ∈ q.params.params, types'.fieldType? p ≠ none) ∧ write v types' q = .ok a := by
  constructor
  · rintro ⟨_, compiled⟩
    rw [exec_compile] at compiled
    rcases walked : (q.walk resolver).exec types j with ⟨⟨failure | _, settled⟩, j'⟩
    · rw [walked] at compiled
      cases compiled
    · simp only [walked] at compiled
      split at compiled
      · cases compiled
      · next missing =>
        split at compiled
        · cases compiled
        · next wrote =>
          cases compiled
          refine ⟨⟨_, rfl⟩, fun p member => ?_, wrote⟩
          simpa using List.find?_eq_none.mp missing p member
  · rintro ⟨⟨j', walked⟩, typed, wrote⟩
    have found : q.params.params.find? (fun p => (types'.fieldType? p).isNone) = none := by
      rw [List.find?_eq_none]
      intro p member
      simpa using typed p member
    rw [exec_compile]
    simp only [walked, found, wrote]
    exact ⟨_, rfl⟩

end

end PreparedSql.Prepared
