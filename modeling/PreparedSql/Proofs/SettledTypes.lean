import PreparedSql.Proofs.SettledCells
import PreparedSql.Proofs.Slicing
import PreparedSql.Proofs.WalkRelations

/-! What a compilation makes of the types of parameters. Whether its walk succeeds is
not up to the types, and the body is written from the types of the registered
parameters alone. As no type changes that is settled, a query that has compiled
compiles to the same artifact for good. -/
namespace PreparedSql

open PreparedSql.Action

namespace Action

variable {σ α β : Type}

/-- The outcomes of two actions are the same, from whatever states. -/
def Agree (a b : Action σ α) : Prop :=
  ∀ s j s' j', (a.exec s j).1.1 = (b.exec s' j').1.1

theorem agree_bind {a b : Action σ α} {f g : α → Action σ β} (first : Agree a b)
    (rest : ∀ x, Agree (f x) (g x)) : Agree (a >>= f) (b >>= g) := by
  intro s j s' j'
  have same := first s j s' j'
  rw [exec_bind, exec_bind]
  generalize a.exec s j = run, b.exec s' j' = run' at same
  obtain ⟨⟨failure | x, t⟩, k⟩ := run <;> obtain ⟨⟨failure' | y, t'⟩, k'⟩ := run' <;> cases same
  · rfl
  · exact rest x t k t' k'

/-- Actions agree that do not look at what they are told of the state. -/
theorem agree_get {f g : σ → Action σ α} (each : ∀ x y, Agree (f x) (g y)) :
    Agree (get >>= f) (get >>= g) :=
  fun s j s' j' => each s s' s j s' j'

end Action

namespace Prepared

/-! ### The walk that settles types -/

private theorem settle_agree (p : Param) (s s' : Site) :
    Agree (resolve.settle p s) (resolve.settle p s') := by
  have succeeds (s : Site) (ts : Types) (j : Journal) :
      ((resolve.settle p s).exec ts j).1.1 = .ok () := by
    unfold resolve.settle
    cases s.target <;> rfl
  intro ts j ts' j'
  rw [succeeds, succeeds]

/-- Whether a visit refuses its site is up to the lookup. -/
theorem resolve_agree (p : Param) {s s' : Site} (same : s.lookup = s'.lookup) :
    Agree (resolve p s) (resolve p s') := by
  unfold resolve
  rw [← same]
  split
  · exact fun _ _ _ _ => rfl
  · exact fun _ _ _ _ => rfl
  · split
    · exact settle_agree p s s'
    · exact fun _ _ _ _ => rfl
  all_goals first | exact fun _ _ _ _ => rfl | exact settle_agree p s s'

/-- Whether the walk succeeds is not up to the types. -/
theorem walk_agree (q : Query) : Agree (q.walk resolver) (q.walk resolver) := by
  have related : resolver.Related resolver Agree :=
    { done := fun _ _ _ _ => rfl
      next := fun first rest => agree_bind first fun _ => rest
      types := agree_get
      visit := resolve_agree }
  exact q.walk_related related

/-! ### The body that is written -/

section
variable {ts ts' : Types} {params : Registry}

private theorem baseOf_congr (same : ∀ p ∈ params.params, ts'.fieldType? p = ts.fieldType? p)
    (token : String) : baseOf ts' params token = baseOf ts params token := by
  have opened (l : Layout) {p : Param} (known : params.byToken? token = some p) :
      l.opened ts' p = l.opened ts p := by
    simp only [Layout.opened, Layout.slotsOf, same p (byToken?_some known).1]
  unfold baseOf
  cases known : params.byToken? token with
  | none => rfl
  | some p => simp only [opened _ known]

/-- The body is written from the types of the registered parameters. -/
theorem write_congr (v : Vendor) {q : Query}
    (same : ∀ p ∈ q.params.params, ts'.fieldType? p = ts.fieldType? p) :
    write v ts' q = write v ts q := by
  have filled : filling v ts' q.params = filling v ts q.params := by
    funext h
    unfold filling part
    cases h with
    | literal x => rfl
    | span low high => rfl
    | element token index => simp only [baseOf_congr same]
  unfold write
  rw [filled]

end

/-! ### Settled artifacts -/

/-- With these types, or with more, the query compiles to the artifact. -/
def Settled (v : Vendor) (q : Query) (ts : Types) (a : Artifact) : Prop :=
  ∀ ts', ts.Extends ts' → ∀ j, ((compile v q).exec ts' j).1.1 = .ok a

section
variable {v : Vendor} {q : Query} {ts ts' : Types} {a : Artifact}

theorem settled_of_extends (settled : Settled v q ts a) (more : ts.Extends ts') :
    Settled v q ts' a :=
  fun ts'' further => settled ts'' (Types.extends_trans more further)

theorem compile_of_settled (settled : Settled v q ts a) (j : Journal) :
    ((compile v q).exec ts j).1.1 = .ok a :=
  settled ts ts.extends_refl j

/-- What has compiled once compiles to the same for good. -/
theorem settled_of_compiled {j j' : Journal}
    (compiled : (compile v q).exec ts j = ((.ok a, ts'), j')) : Settled v q ts' a := by
  obtain ⟨⟨_, walked⟩, typed, written⟩ := compile_ok_iff.mp ⟨_, compiled⟩
  intro earlier more k
  obtain ⟨⟨outcome, later⟩, k', again⟩ :
      ∃ run k', (q.walk resolver).exec earlier k = (run, k') := ⟨_, _, rfl⟩
  have further : earlier.Extends later := by
    have filled := walk_fills q earlier k
    rw [again] at filled
    exact filled.fieldType
  have succeeds : outcome = .ok () := by
    have same := walk_agree q earlier k ts j
    rwa [again, walked] at same
  have kept : ∀ p ∈ q.params.params, later.fieldType? p = ts'.fieldType? p := fun p member =>
    Types.fieldType?_of_extends (Types.extends_trans more further) (typed p member)
  have typedLater : ∀ p ∈ q.params.params, later.fieldType? p ≠ none := by
    intro p member
    rw [kept p member]
    exact typed p member
  rw [succeeds] at again
  obtain ⟨_, compiledAgain⟩ := compile_ok_iff.mpr
    ⟨⟨_, again⟩, typedLater, (write_congr v kept).trans written⟩
  rw [compiledAgain]

/-- A query compiles for every database, when it does for one. -/
theorem compile_other (v' : Vendor) {j : Journal}
    (compiled : ((compile v q).exec ts j).1.1 = .ok a) :
    ∃ a', ((compile v' q).exec ts j).1.1 = .ok a' := by
  rcases ran : (compile v q).exec ts j with ⟨⟨outcome, ts'⟩, j'⟩
  rw [ran] at compiled
  cases compiled
  obtain ⟨⟨_, walked⟩, typed, written⟩ := compile_ok_iff.mp ⟨_, ran⟩
  obtain ⟨a', written'⟩ := write_elsewhere v' written
  obtain ⟨_, compiled⟩ := compile_ok_iff.mpr ⟨⟨_, walked⟩, typed, written'⟩
  exact ⟨a', by rw [compiled]⟩

/-- An artifact is for the database that it was compiled for. -/
theorem vendor_of_compiled {j j' : Journal}
    (compiled : (compile v q).exec ts j = ((.ok a, ts'), j')) : a.vendor = v := by
  obtain ⟨_, _, written⟩ := compile_ok_iff.mp ⟨_, compiled⟩
  obtain ⟨_, _, answer⟩ := Outcome.bind_ok.mp written
  cases answer
  rfl

end

end Prepared

end PreparedSql
