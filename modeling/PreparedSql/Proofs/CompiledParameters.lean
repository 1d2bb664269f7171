import PreparedSql.Library.Author
import PreparedSql.Prepared.Execution
import PreparedSql.Proofs.BuiltQueries
import PreparedSql.Proofs.SlotLayout
import PreparedSql.Proofs.WalkRelations

/-! The registry, the statement and the artifact of a built query name the same
parameters. What is registered is what the statement waits for, in every flavor;
so the writing of a body meets no token that nobody knows, and an execution has
a value for every slot. -/
namespace PreparedSql

open Piece

/-! ### The parameters of a statement -/

theorem Piece.map_holesFrom (start : Nat) (ps : List Piece) :
    (holesFrom start ps).map (·.2) = holes ps := by
  induction ps generalizing start with
  | nil => rfl
  | cons p ps ih =>
    cases p with
    | text s => exact ih _
    | hole h => rw [holesFrom, List.map_cons, ih, holes_hole]

/-- The parameters that a statement waits for, be it for their elements or for
the number of rows between them. -/
def Template.params (issued : String → Param) (t : Template) : List Param :=
  (t.holes.map (·.2)).flatMap (Hole.params issued)

namespace Query

variable {issued : String → Param} {q : Query}

private theorem params_leaves {ls : List Leaf} (known : ∀ p, .param p ∈ ls → issued p.token = p)
    (p : Param) : (∃ h ∈ ls.flatMap Leaf.holes, p ∈ h.params issued) ↔ .param p ∈ ls := by
  constructor
  · rintro ⟨h, member, inside⟩
    obtain ⟨leaf, held, member⟩ := List.mem_flatMap.mp member
    cases leaf with
    | literal x =>
      obtain rfl := List.mem_singleton.mp member
      cases inside
    | param r =>
      obtain ⟨index, _, rfl⟩ := List.mem_map.mp member
      rw [List.mem_singleton.mp inside, known r held]
      exact held
  · intro held
    refine ⟨.element p.token 0, List.mem_flatMap.mpr ⟨_, held, ?_⟩, ?_⟩
    · simpa [Leaf.holes] using p.slots_pos
    · simp [Hole.params, known p held]

/-- A window waits for the parameters of its bounds. -/
private theorem params_window {low : Bound} {high : Option Bound} (f : Flavor)
    (known : ∀ p, .param p ∈ low :: high.toList → issued p.token = p) (p : Param) :
    (∃ h ∈ holes (f.window low high), p ∈ h.params issued) ↔
      .param p ∈ low.leaves ++ high.toList.flatMap Bound.leaves := by
  have lowKnown : ∀ p, .param p ∈ low.leaves → issued p.token = p :=
    fun p member => known p (by simp [Bound.mem_leaves.mp member])
  have ofLow := params_leaves lowKnown p
  rw [Flavor.holes_window]
  cases high with
  | none => simpa using ofLow
  | some b =>
    have highKnown : ∀ p, .param p ∈ b.leaves → issued p.token = p :=
      fun p member => known p (by simp [Bound.mem_leaves.mp member])
    have ofHigh := params_leaves highKnown p
    simp only [Option.toList_some, List.flatMap_singleton]
    split
    · next fromZero =>
      have nothing : low.leaves = [] := by
        cases low with
        | row n => rfl
        | param p => cases fromZero
      rw [ofHigh, nothing, List.nil_append]
    · split
      · have ofSpan : p ∈ (Hole.span low b).params issued ↔ .param p ∈ low.leaves ++ b.leaves :=
          Leaf.mem_params
        simp only [List.mem_cons, or_and_right, exists_or, exists_eq_left, ofLow, ofSpan,
          List.mem_append]
        exact ⟨fun held => held.elim id .inl, .inl⟩
      · next rows =>
        cases low <;> cases b <;> simp [Bound.isParam, Bound.leaves] at rows ⊢

/-- In every flavor the statement waits for the parameters of the query. -/
theorem mem_params_selectTemplate (known : ∀ p, .param p ∈ q.leaves → issued p.token = p)
    (f : Flavor) (p : Param) : p ∈ (q.selectTemplate f).params issued ↔ .param p ∈ q.leaves := by
  have listed : (q.selectTemplate f).holes.map (·.2) =
      q.frontLeaves.flatMap Leaf.holes ++ holes (f.window q.low q.high) := by
    rw [selectTemplate, Template.ofPieces, Piece.map_holesFrom, Flavor.select_eq, holes_append,
      q.holes_front]
    rfl
  rw [Template.params, List.mem_flatMap, listed, leaves, List.mem_append]
  simp only [List.mem_append, or_and_right, exists_or]
  refine or_congr (params_leaves (fun p member => known p (List.mem_append_left _ member)) p) ?_
  have bounds : ∀ p, .param p ∈ q.low :: q.high.toList → issued p.token = p :=
    fun p bound => known p (mem_leaves_of_bound bound)
  rw [params_window f bounds p, List.mem_append]

end Query

/-! ### What a walk fails with -/

namespace Action

variable {σ α β : Type} {P : Failure → Prop}

/-- Whenever the action fails, it is with one of the failures. -/
def FailsWith (P : Failure → Prop) (a : Action σ α) : Prop :=
  ∀ s j failure s' j', a.exec s j = ((.error failure, s'), j') → P failure

theorem failsWith_pure (x : α) : FailsWith P (pure x : Action σ α) := by
  intro s j failure s' j' run
  cases run

theorem failsWith_modify (f : σ → σ) : FailsWith P (modify f : Action σ PUnit) := by
  intro s j failure s' j' run
  cases run

theorem failsWith_throw {failure : Failure} (one : P failure) :
    FailsWith P (throw failure : Action σ α) := by
  intro s j failure' s' j' run
  cases run
  exact one

theorem failsWith_bind {a : Action σ α} {f : α → Action σ β} (first : FailsWith P a)
    (rest : ∀ x, FailsWith P (f x)) : FailsWith P (a >>= f) := by
  intro s j failure s' j' run
  rw [exec_bind] at run
  rcases inner : a.exec s j with ⟨⟨failure' | x, s''⟩, j''⟩
  · rw [inner] at run
    cases run
    exact first s j failure s' j' inner
  · rw [inner] at run
    exact rest x s'' j'' failure s' j' run

end Action

open PreparedSql.Action

section
variable {σ : Type} {P : Failure → Prop} {visitor : Visitor (Action σ)}

/-- A walk fails with nothing but what its visits fail with. -/
theorem Query.walk_failsWith (types : FailsWith P visitor.types)
    (visits : ∀ p s, FailsWith P (visitor.visit p s)) (q : Query) : FailsWith P (q.walk visitor) := by
  have related : visitor.Related visitor fun a _ => FailsWith P a :=
    { done := failsWith_pure ()
      next := fun first rest => failsWith_bind first fun _ => rest
      types := fun each => failsWith_bind types fun ts => each ts ts
      visit := fun p s _ _ => visits p s }
  exact q.walk_related related

end

namespace Prepared

/-- A parameter stands where none can be prepared. -/
inductive Misplaced : Failure → Prop where
  | unsupportedLookup (lookup : String) : Misplaced (.unsupportedLookup lookup)
  | arrayParameterRequired (name : String) : Misplaced (.arrayParameterRequired name)

/-- Why a query whose parameters are all registered may yet not be compiled: a
parameter stands where none can be prepared, or nothing types it, or a literal
leaves the calendar at UTC. -/
inductive Refusal : Failure → Prop where
  | unsupportedLookup (lookup : String) : Refusal (.unsupportedLookup lookup)
  | arrayParameterRequired (name : String) : Refusal (.arrayParameterRequired name)
  | missingParameterType (name : String) : Refusal (.missingParameterType name)
  | outsideCalendar : Refusal (.conversion .outsideCalendar)

theorem refusal_of_misplaced {failure : Failure} (misplaced : Misplaced failure) :
    Refusal failure := by
  cases misplaced with
  | unsupportedLookup lookup => exact .unsupportedLookup lookup
  | arrayParameterRequired name => exact .arrayParameterRequired name

private theorem settle_failsWith {P : Failure → Prop} (p : Param) (s : Site) :
    FailsWith P (resolve.settle p s) := by
  unfold resolve.settle
  cases s.target with
  | none => exact failsWith_pure _
  | some t => exact failsWith_modify _

/-- A visit fails over where its parameter stands and nothing else. -/
theorem resolve_failsWith (p : Param) (s : Site) : FailsWith Misplaced (resolve p s) := by
  unfold resolve
  split
  · exact failsWith_throw (.unsupportedLookup _)
  · exact failsWith_throw (.unsupportedLookup _)
  · split
    · exact settle_failsWith p s
    · exact failsWith_throw (.arrayParameterRequired _)
  · exact failsWith_modify _
  · exact failsWith_modify _
  · exact failsWith_modify _
  · exact failsWith_modify _
  · exact failsWith_modify _
  · exact failsWith_modify _
  · exact settle_failsWith p s

/-- So does the walk that settles types. -/
theorem walk_failsWith (q : Query) : FailsWith Misplaced (q.walk resolver) := by
  refine q.walk_failsWith ?_ resolve_failsWith
  intro s j failure s' j' run
  cases run

section
variable {v : Vendor} {q : Query} {issued : String → Param}

/-- The token of every parameter of a recorded query is registered. -/
theorem registered_of_recorded (recorded : q.Recorded issued) {p : Param}
    (occurs : .param p ∈ q.leaves) : q.params.byToken? p.token = some p := by
  have member := (recorded.members p).mpr occurs
  obtain ⟨r, found⟩ : ∃ r, q.params.byToken? p.token = some r := by
    rw [Registry.byToken?, ← Option.isSome_iff_exists, List.find?_isSome]
    exact ⟨p, member, by simp⟩
  obtain ⟨held, same⟩ := byToken?_some found
  rw [found, ← recorded.proper.issued r held, same, recorded.proper.issued p member]

/-- Compiling a recorded query never meets a token that is not registered. -/
theorem compile_failsWith (recorded : q.Recorded issued) : FailsWith Refusal (compile v q) := by
  have getter : FailsWith Refusal (get : Action Types Types) := by
    intro s j failure s' j' run
    cases run
  have walks : FailsWith Refusal (q.walk resolver) := fun s j failure s' j' run =>
    refusal_of_misplaced (walk_failsWith q s j failure s' j' run)
  refine failsWith_bind walks fun _ => failsWith_bind getter fun types => ?_
  have writes := writtenWhen_body v types fun p occurs =>
    ⟨p, registered_of_recorded recorded occurs⟩
  split
  · intro s j failure s' j' run
    cases run
    exact .missingParameterType _
  · intro s j failure s' j' run
    cases written : write v types q with
    | ok a =>
      rw [written] at run
      cases run
    | error other =>
      rw [written] at run
      cases run
      obtain ⟨rfl, _⟩ := failure_of_unwritten writes written
      exact .outsideCalendar

variable {a : Artifact} {types types' : Types} {j j' : Journal} {cleaned : CleanedArguments}

/-- The artifact lists the parameters of the registry, in an order of its own. -/
theorem order_perm (recorded : q.Recorded issued)
    (compiled : (compile v q).exec types j = ((.ok a, types'), j')) :
    a.order.Perm (q.params.params.map Param.token) ∧
      a.names = a.order.map fun token => (issued token).name := by
  obtain ⟨ps, l, yielded, made⟩ := write_made (compile_ok_iff.mp ⟨_, compiled⟩).2.2
  have known := Query.issued_of_recorded recorded
  have start : Noted issued {} :=
    ⟨List.nodup_nil, rfl, fun _ _ met => by simp [Layout.base?] at met⟩
  obtain ⟨noted, listed⟩ := steps_noted recorded.proper.issued (issued_pieces known) start
    (steps_of_parts yielded)
  have asked (p : Param) : (∃ h ∈ holes (pieces v q), p ∈ h.params issued) ↔ p ∈ q.params.params := by
    have written := Query.mem_params_selectTemplate
      (fun p occurs => known p (.inl occurs)) v.flavor p
    rw [Template.params, Query.selectTemplate, Template.ofPieces, Piece.map_holesFrom,
      List.mem_flatMap] at written
    exact written.trans (recorded.members p).symm
  refine ⟨?_, by rw [made.names, made.order, noted.names]⟩
  rw [made.order, List.perm_ext_iff_of_nodup noted.order recorded.proper.tokens]
  intro token
  rw [listed, List.mem_map]
  constructor
  · rintro (none | ⟨h, member, p, inside, same⟩)
    · cases none
    · exact ⟨p, (asked p).mp ⟨h, member, inside⟩, same⟩
  · rintro ⟨p, member, same⟩
    obtain ⟨h, held, inside⟩ := (asked p).mpr member
    exact .inr ⟨h, held, p, inside, same⟩

/-- A bound has a value, unless it is not a number. -/
private theorem boundValue_fails {b : Bound} {failure : Failure}
    (sized : ∀ p, b = .param p → (valuesOf cleaned p.name).length = p.slots)
    (failed : boundValue cleaned b = .error failure) : ∃ fault, failure = .conversion fault := by
  cases b with
  | row n => cases failed
  | param p =>
    rw [boundValue] at failed
    split at failed
    · next nothing =>
      have slots := sized p rfl
      rw [nothing] at slots
      have := p.slots_pos
      simp at slots
      omega
    · split at failed
      · cases failed
      · cases failed
        exact ⟨_, rfl⟩

/-- When every registered parameter has a value for each of its elements, an
execution fails over nothing but a bound that is not a number or a value that has
no literal. -/
theorem execution_fails {failure : Failure} (recorded : q.Recorded issued)
    (compiled : (compile v q).exec types j = ((.ok a, types'), j'))
    (sized : ∀ p ∈ q.params.params, (valuesOf cleaned p.name).length = p.slots)
    (failed : execution v a cleaned = .error failure) : ∃ fault, failure = .conversion fault := by
  obtain ⟨ps, l, yielded, made⟩ := write_made (compile_ok_iff.mp ⟨_, compiled⟩).2.2
  have known := Query.issued_of_recorded recorded
  have identified := Query.identified_of_issued known
  rcases Outcome.bind_error failed with failed | ⟨_, _, rest⟩
  · obtain ⟨position, member, failed⟩ := Outcome.mapM_error failed
    rw [made.positions] at member
    obtain ⟨h, asked, source, asks, held⟩ :=
      fed_of_position identified (steps_of_parts yielded) member
    obtain ⟨slot, found, rfl⟩ := Option.map_eq_some_iff.mp held
    have failed : slotValue cleaned slot.source = .error failure := by
      rwa [argumentAt, made.slots, found] at failed
    cases h with
    | literal x => cases asks
    | element token index =>
      obtain ⟨p, registered, source⟩ := Option.map_eq_some_iff.mp asks
      have inside := fits_holes v identified _ asked p registered
      rw [← sized p (byToken?_some registered).1] at inside
      rw [← source, slotValue, List.getElem?_eq_getElem inside] at failed
      cases failed
    | span low high =>
      have source := Option.some.inj asks
      rw [← source] at failed
      rcases mem_pieces (mem_holes.mp asked) with ⟨_, sliced, same⟩ | leaf
      · cases same
        have bounds (x : Bound) (bound : x ∈ q.low :: q.high.toList) (p : Param)
            (same : x = .param p) : (valuesOf cleaned p.name).length = p.slots := by
          refine sized p ((recorded.members p).mpr (Query.mem_leaves_of_bound ?_))
          rwa [← same]
        rcases Outcome.bind_error failed with failed | ⟨_, _, rest⟩
        · exact boundValue_fails (bounds high (by simp [sliced])) failed
        · rcases Outcome.bind_error rest with failed | ⟨_, _, answer⟩
          · exact boundValue_fails (bounds q.low List.mem_cons_self) failed
          · cases answer
      · obtain ⟨leaf, _, held⟩ := List.mem_flatMap.mp leaf
        cases leaf <;> simp [Leaf.holes] at held
  · rcases Outcome.bind_error rest with failed | ⟨_, _, answer⟩
    · obtain ⟨x, _, failed⟩ := Outcome.mapM_error failed
      exact ⟨_, (Flavor.outside_of_unwritten failed).1⟩
    · cases answer

end

/-- Registry, statement, artifact and executions of a query name the same
parameters. -/
structure InStep (issued : String → Param) (q : Query) : Prop where
  /-- No two registered parameters share a token or a name. -/
  tokens : (q.params.params.map Param.token).Nodup
  names : q.params.names.Nodup
  /-- The registered parameters are those that the statement waits for. -/
  written : ∀ f p, p ∈ q.params.params ↔ p ∈ (q.selectTemplate f).params issued
  /-- A compilation fails for other reasons than a token that is not registered. -/
  refused : ∀ v types j failure types' j',
    (compile v q).exec types j = ((.error failure, types'), j') → Refusal failure
  /-- An artifact orders the registered parameters, names aligned. -/
  ordered : ∀ v types j a types' j', (compile v q).exec types j = ((.ok a, types'), j') →
    a.order.Perm (q.params.params.map Param.token) ∧
      a.names = a.order.map fun token => (issued token).name
  /-- With a value for every element, an execution misses none. -/
  executed : ∀ v types j a types' j' cleaned failure,
    (compile v q).exec types j = ((.ok a, types'), j') →
    (∀ p ∈ q.params.params, (valuesOf cleaned p.name).length = p.slots) →
    execution v a cleaned = .error failure → ∃ fault, failure = .conversion fault

/-- Whatever was built keeps its parameters in step. -/
theorem built_inStep {issued : String → Param} {s : QuerySet} (built : s.Built issued) :
    InStep issued s.query := by
  have recorded := QuerySet.recorded_of_built built
  exact {
    tokens := recorded.proper.tokens
    names := recorded.proper.names
    written := by
      intro f p
      have occurs := fun p occurs => Query.issued_of_recorded recorded p (.inl occurs)
      rw [recorded.members, Query.mem_params_selectTemplate occurs]
    refused := fun _ types j failure types' j' run =>
      compile_failsWith recorded types j failure types' j' run
    ordered := fun _ _ _ _ _ _ compiled => order_perm recorded compiled
    executed := fun _ _ _ _ _ _ _ _ compiled sized failed =>
      execution_fails recorded compiled sized failed }

section
open Library

def penName : Param := .scalar "n" "name"
def skipped : Param := .scalar "s" "skip"

/-- The authors of a name, of whom the first are skipped. -/
theorem namedAuthors_inStep : ∃ s : QuerySet, s.query.params.params = [penName, skipped] ∧
    InStep (fun token => if token = "n" then penName else skipped) s.query := by
  let issued (token : String) : Param := if token = "n" then penName else skipped
  let named : Expr := .binary .equal (.column Author.nameColumn) (.param penName)
  have all : QuerySet.Built issued (.building (Query.ofModel Author.model)) :=
    .objects (m := Author.model) (t := {}) (j := []) rfl
  have known : ∀ p, .param p ∈ (Builder.filter named).leaves → issued p.token = p := by
    intro p occurs
    have same : p = penName := by simpa [Builder.leaves, named, Expr.leaves] using occurs
    rw [same]
    rfl
  have filtered : QuerySet.Built issued _ := .change (t := {}) (j := []) all known rfl
  have both : QuerySet.Built issued _ := .intersect (t := {}) (j := []) filtered filtered rfl
  have bounded : ∀ p, .param p ∈ (Builder.offset (.param skipped)).leaves → issued p.token = p := by
    intro p occurs
    have same : p = skipped := by simpa [Builder.leaves, Bound.leaves] using occurs
    rw [same]
    rfl
  have page : QuerySet.Built issued _ := .change (t := {}) (j := []) both bounded rfl
  exact ⟨_, rfl, built_inStep page⟩

end

end Prepared

end PreparedSql
