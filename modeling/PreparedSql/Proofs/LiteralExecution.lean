import PreparedSql.Library.Author
import PreparedSql.Proofs.ParameterSubstitution
import PreparedSql.Proofs.QueryText

/-! Executing a prepared query is running the query with literals. The server
reads the values of the parameters at their placeholders, however often and in
whatever order they occur; the text it then runs is the one that the query has
when every parameter is replaced by its values. -/
namespace PreparedSql

open Piece

/-! ### Queries with values -/

namespace Query

/-- The query with values in the places of the parameters of its expressions. -/
def assign (σ : Assignment) (q : Query) : Query :=
  { q with
    annotations := q.annotations.map fun (alias_, e) => (alias_, e.assign σ)
    condition := q.condition.map (·.assign σ)
    orderBy := q.orderBy.map fun (order, e) => (order, e.assign σ)
    params := {} }

section
variable {ν : Hole → Hole} {σ : Assignment}

private theorem projected_assign {f : Flavor} {e : Expr} (alias_ : Option String)
    (written : (e.assign σ).write { flavor := f } = refill ν (e.write { flavor := f })) :
    f.projected (e.assign σ, alias_) = refill ν (f.projected (e, alias_)) := by
  cases alias_ <;> simp [Flavor.projected, written]

/-- The front of a query with values is that of the query, but for its holes. -/
theorem front_assign {q : Query} (f : Flavor) (literals : ∀ x, ν (.literal x) = .literal x)
    (ranged : ∀ e ∈ q.expressions, e.ranged)
    (assigns : ∀ p, .param p ∈ q.frontLeaves → Assigns ν σ p) :
    f.front (q.assign σ).selects = refill ν (f.front q.selects) := by
  have written (w : Manner) (outside : w.fragment ≠ .rangeEnds) (e : Expr)
      (member : e ∈ q.expressions) : (e.assign σ).write w = refill ν (e.write w) :=
    Expr.write_assign literals w e (ranged e member) (absurd · outside)
      fun p inside => assigns p (List.mem_flatMap.mpr ⟨e, member, inside⟩)
  have columns : (q.assign σ).selects.columns.map f.projected =
      (q.selects.columns.map f.projected).map (refill ν) := by
    simp only [selection, projection, assign, List.map_append, List.map_map, Function.comp_def]
    congr 1
    refine List.map_congr_left fun entry member => ?_
    refine projected_assign (some entry.1) (written _ (by simp) entry.2 ?_)
    exact List.mem_append_left _ (List.mem_append_left _ (List.mem_map_of_mem member))
  have condition : f.whereClause (q.assign σ).selects.condition =
      refill ν (f.whereClause q.selects.condition) := by
    cases present : q.condition with
    | none => simp [selection, assign, present, Flavor.whereClause]
    | some e =>
      have inner := written { flavor := f } (by simp) e (by simp [expressions, present])
      simp [selection, assign, present, Flavor.whereClause, inner]
  have order : f.orderClause (q.assign σ).selects.orderBy =
      refill ν (f.orderClause q.selects.orderBy) := by
    have entries : (q.assign σ).selects.orderBy.map
          (·.write { flavor := f, fragment := .orderings }) =
        (q.selects.orderBy.map (·.write { flavor := f, fragment := .orderings })).map
          (refill ν) := by
      simp only [selection, assign, List.map_map, Function.comp_def]
      refine List.map_congr_left fun entry member => ?_
      have inner := written { flavor := f, fragment := .orderings } (by simp) entry.2
        (List.mem_append_right _ (List.mem_map_of_mem member))
      simp [Expr.write, inner]
    have empty : (q.assign σ).selects.orderBy.isEmpty = q.selects.orderBy.isEmpty := by
      simp [selection, assign]
    unfold Flavor.orderClause
    rw [empty, entries]
    split <;> simp
  simp only [Flavor.front, columns, condition, order, refill_text, refill_append, refill_separated]
  rfl

end

end Query

namespace Prepared

variable {v : Vendor} {q : Query} {a : Artifact} {types types' : Types} {j j' : Journal}
  {cleaned : CleanedArguments}

/-- The value of a hole, put into its place. -/
def literalHole (params : Registry) (cleaned : CleanedArguments) (h : Hole) : Hole :=
  match holeValue params cleaned h with
  | .ok x => .literal x
  | .error _ => h

/-- The values of a parameter are assigned to its holes, where all of them are
filled. -/
theorem assigns_literalHole {p : Param} {params : Registry}
    (registered : params.byToken? p.token = some p)
    (sized : (valuesOf cleaned p.name).length = p.slots) :
    Assigns (literalHole params cleaned) (fun p => valuesOf cleaned p.name) p := by
  unfold Assigns
  rw [← sized]
  refine List.ext_getElem (by simp) fun i inside _ => ?_
  have bounded : i < (valuesOf cleaned p.name).length := by simpa using inside
  simp [literalHole, holeValue, registered, slotValue, bounded]

/-- With its values put into the places of the holes, a text is filled as with
the values beside it. -/
theorem inline_literalHole {f : Flavor} {params : Registry} {ps : List Piece} {text : String}
    (filled : Piece.fill (holeText f params cleaned) ps = .ok text) :
    (Template.ofPieces (refill (literalHole params cleaned) ps)).inline f = .ok text := by
  rw [Flavor.inline_ofPieces, fill_refill, ← filled]
  refine fill_congr fun h member => ?_
  obtain ⟨s, texted⟩ := fill_ok filled member
  cases valued : holeValue params cleaned h with
  | error failure =>
    rw [holeText, valued] at texted
    cases texted
  | ok x =>
    simp only [literalHole, holeText, valued]
    rfl

/-- The number of rows between two row numbers needs no argument. -/
theorem supplied_rows {low high : Bound} (lowRow : low.isParam = false)
    (highRow : high.isParam = false) : Supplied cleaned (.span low high) := by
  cases low with
  | param p => cases lowRow
  | row low =>
    cases high with
    | param p => cases highRow
    | row high => exact ⟨_, rfl⟩

section
open Library

/-- Authors of a name or with one of two keys; the name is asked for twice. -/
def nameOrKeys : Query :=
  let name := Param.scalar "n" "name"
  let keys := Param.array "k" "keys" 2
  let named := Expr.binary .equal (.column Author.nameColumn) (.param name)
  let keyed := Expr.binary .isIn (.column Author.idColumn) (.param keys)
  { model := Author.model
    condition := some (.binary .or named (.binary .or keyed named))
    params := ⟨[name, keys]⟩ }

/-- Values for the name and for both keys. -/
def olgaOrKeys : CleanedArguments :=
  [("name", [.varchar (some "Olga Tokarczuk")]),
    ("keys", [.int .int32 (some (Ranged.clamp .int32 1)), .int .int32 none])]

end

end Prepared

end PreparedSql
