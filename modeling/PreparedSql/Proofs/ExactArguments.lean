import Mathlib.Data.List.Induction
import Mathlib.Data.List.Sort
import Mathlib.Data.String.Basic
import PreparedSql.Proofs.ArgumentContract
import PreparedSql.Proofs.ArgumentKinds

/-! The check of arguments. It compares two numbers, of the arguments and of the parameters, and
looks every parameter up among the arguments. That the names are the same ones then rests on both
being listed once each: for the arguments by how they are put under names, for the parameters by how
they are attached, which every change of a query does in the same way. -/
namespace PreparedSql

open PreparedSql.Action

/-! ### Things put under names -/

namespace Named

variable {α : Type} {n : Named α} {pairs : List (String × α)} {name other : String} {x : α}

/-- What was given last for a name. -/
def last? (pairs : List (String × α)) (name : String) : Option α :=
  (pairs.reverse.find? (·.1 == name)).map (·.2)

theorem names_put (n : Named α) (name : String) (x : α) :
    (n.put name x).names = n.names.filter (· != name) ++ [name] := by
  simp [names, put, erase, List.filter_map, Function.comp_def]

theorem contains_iff : n.contains name = true ↔ name ∈ n.names := by
  simp [contains, get?, names]

theorem ofList_concat (pairs : List (String × α)) (pair : String × α) :
    ofList (pairs ++ [pair]) = (ofList pairs).put pair.1 pair.2 := by
  simp [ofList]

/-- What is put under names is listed once for each of them. -/
theorem names_ofList (pairs : List (String × α)) :
    (ofList pairs).names.Nodup ∧
      ∀ name, name ∈ (ofList pairs).names ↔ name ∈ pairs.map Prod.fst := by
  induction pairs using List.reverseRecOn with
  | nil => exact ⟨List.nodup_nil, fun _ => Iff.rfl⟩
  | append_singleton pairs pair ih =>
    obtain ⟨distinct, members⟩ := ih
    rw [ofList_concat, names_put]
    constructor
    · refine List.nodup_append.mpr ⟨distinct.filter _, List.nodup_singleton _, ?_⟩
      rintro name kept _ last rfl
      rw [List.mem_singleton] at last
      simp [last] at kept
    · intro name
      by_cases same : name = pair.1
      · simp [same]
      · simp [same, members]

/-- Under a name stands what was given for it last. -/
theorem get?_ofList (pairs : List (String × α)) (name : String) :
    (ofList pairs).get? name = last? pairs name := by
  induction pairs using List.reverseRecOn with
  | nil => rfl
  | append_singleton pairs pair ih =>
    rw [ofList_concat, last?, List.reverse_append]
    by_cases same : name = pair.1
    · rw [same, get?_put_self]
      simp
    · rw [get?_put_of_ne _ _ same, ih, last?]
      simp [Ne.symm same]

/-- Of names that are given once each the order does not matter. -/
theorem last?_of_perm {pairs' : List (String × α)} (once : (pairs.map Prod.fst).Nodup)
    (perm : pairs'.Perm pairs) (name : String) : last? pairs' name = last? pairs name := by
  have given {pairs : List (String × α)} (once : (pairs.map Prod.fst).Nodup) (x : α) :
      last? pairs name = some x ↔ (name, x) ∈ pairs := by
    have reversed : (pairs.reverse.map Prod.fst).Nodup := by
      rw [List.map_reverse, List.nodup_reverse]
      exact once
    rw [last?, Option.map_eq_some_iff]
    constructor
    · rintro ⟨pair, found, rfl⟩
      obtain ⟨member, rfl⟩ := (find?_key_iff reversed).mp found
      exact List.mem_reverse.mp member
    · intro member
      exact ⟨_, (find?_key_iff reversed).mpr ⟨List.mem_reverse.mpr member, rfl⟩, rfl⟩
  have once' : (pairs'.map Prod.fst).Nodup := (perm.map Prod.fst).nodup_iff.mpr once
  ext x
  rw [given once', given once, perm.mem_iff]

end Named

/-! ### What cleaning refuses -/

namespace Param

/-- A parameter that has no type, or whose values are refused. -/
theorem clean_error {p : Param} {types : Types} {a : Argument} {failure : Failure}
    (failed : p.clean types a = .error failure) :
    failure = .missingParameterType p.name ∨
      (∃ v reason, failure = p.refusal v reason) ∨
      ∃ size supplied, failure = .arraySizeExceeded p.name size supplied := by
  have one {t : FieldType} {nullable : Bool} {v : Value} {failure : Failure}
      (failed : p.cleanOne t nullable v = .error failure) :
      ∃ v reason, failure = p.refusal v reason := by
    obtain ⟨reason, _, same⟩ := cleanOne_error.mp failed
    exact ⟨v, reason, same.symm⟩
  have list {v : Value} {failure : Failure} (failed : p.items v = .error failure) :
      ∃ v reason, failure = p.refusal v reason := by
    unfold items at failed
    split at failed
    · cases failed
    · cases failed
    · cases failed
    · cases failed
      exact ⟨_, _, rfl⟩
  unfold clean at failed
  split at failed
  · cases failed
    exact .inl rfl
  · refine .inr ?_
    split at failed
    · rcases Outcome.bind_error failed with refused | ⟨_, _, answer⟩
      · exact .inl (one refused)
      · cases answer
    · rcases Outcome.bind_error failed with refused | ⟨items, _, rest⟩
      · exact .inl (list refused)
      · split at rest
        · cases rest
          exact .inr ⟨_, _, rfl⟩
        · rcases Outcome.bind_error rest with refused | ⟨_, _, answer⟩
          · obtain ⟨v, _, refused⟩ := Outcome.mapM_error refused
            exact .inl (one refused)
          · cases answer

end Param

/-! ### Names of both sides -/

namespace Text

variable {names given : List String}

/-- As many names of the one kind as of the other, and the ones among the others: they are the
same names. -/
theorem same_names_iff (distinct : names.Nodup) (once : given.Nodup) :
    given.length = names.length ∧ (∀ name ∈ names, name ∈ given) ↔
      ∀ name, name ∈ names ↔ name ∈ given := by
  constructor
  · rintro ⟨count, held⟩ name
    have among : names.Subperm given := List.subperm_of_subset distinct held
    exact (among.perm_of_length_le (Nat.le_of_eq count)).mem_iff
  · intro same
    have perm : names.Perm given := (List.perm_ext_iff_of_nodup distinct once).mpr same
    exact ⟨perm.length_eq.symm, fun name => (same name).mp⟩

/-- Names in order, each once. -/
theorem sorted_names (distinct : names.Nodup) :
    (names.mergeSort (· ≤ ·)).Pairwise (· < ·) ∧
      ∀ name, name ∈ names.mergeSort (· ≤ ·) ↔ name ∈ names := by
  refine ⟨?_, fun name => List.mem_mergeSort⟩
  have once : (names.mergeSort (· ≤ ·)).Nodup := List.nodup_mergeSort.mpr distinct
  have sorted : (names.mergeSort (· ≤ ·)).Pairwise (· ≤ ·) := List.pairwise_mergeSort' (· ≤ ·) names
  exact sorted.imp₂ (fun _ _ le ne => lt_of_le_of_ne le ne) once

/-- The names alone decide on their order. -/
theorem sorted_congr (distinct : names.Nodup) (once : given.Nodup)
    (same : ∀ name, name ∈ names ↔ name ∈ given) :
    names.mergeSort (· ≤ ·) = given.mergeSort (· ≤ ·) :=
  (sorted_names distinct).1.eq_of_mem_iff (sorted_names once).1 fun name => by
    rw [List.mem_mergeSort, List.mem_mergeSort, same]

end Text

namespace Registry

variable {r : Registry} {types : Types} {as as' : Arguments} {cleaned : CleanedArguments}

/-- What comes of the argument for a parameter. -/
def cleanEntry (types : Types) (as : Arguments) (p : Param) :
    Except Failure (Option (String × List Value)) :=
  match as.get? p.name with
  | none => pure none
  | some a => do return some (p.name, ← p.clean types a)

/-- The arguments are looked at only when they name the parameters. -/
theorem cleanArguments_eq (types : Types) (distinct : r.names.Nodup) (once : as.names.Nodup) :
    (¬ (∀ name, name ∈ r.names ↔ name ∈ as.names) ∧ r.cleanArguments types as =
      .error (.incorrectBindParameter (r.names.mergeSort (· ≤ ·)) (as.names.mergeSort (· ≤ ·)))) ∨
    (∀ name, name ∈ r.names ↔ name ∈ as.names) ∧ r.cleanArguments types as =
      r.params.filterMapM (cleanEntry types as) := by
  have same := Text.same_names_iff distinct once
  have held : r.names.all as.contains = true ↔ ∀ name ∈ r.names, name ∈ as.names := by
    simp only [List.all_eq_true, Named.contains_iff]
  have counts : as.size = as.names.length ∧ r.size = r.names.length := by
    simp [Named.size, Named.names, size, names]
  unfold cleanArguments
  split
  · next other =>
    refine .inl ⟨fun matching => ?_, rfl⟩
    obtain ⟨count, named⟩ := same.mpr matching
    rcases other with miscounted | missed
    · exact miscounted (by rw [counts.1, counts.2, count])
    · rw [held.mpr named] at missed
      cases missed
  · next fitting =>
    obtain ⟨counted, named⟩ := not_or.mp fitting
    refine .inr ⟨same.mp ⟨?_, held.mp ?_⟩, rfl⟩
    · rw [← counts.1, ← counts.2]
      exact Decidable.not_not.mp counted
    · simpa using named

/-- Cleaning keeps the names of the parameters, in their order. -/
theorem names_of_cleaned {ps : List Param} (held : ∀ p ∈ ps, as.get? p.name ≠ none)
    (run : ps.filterMapM (cleanEntry types as) = .ok cleaned) :
    cleaned.map Prod.fst = ps.map Param.name := by
  induction ps generalizing cleaned with
  | nil =>
    cases run
    rfl
  | cons p ps ih =>
    obtain ⟨first, others⟩ := List.forall_mem_cons.mp held
    rw [List.filterMapM_cons] at run
    obtain ⟨entry, one, run⟩ := Outcome.bind_ok.mp run
    rw [cleanEntry] at one
    cases supplied : as.get? p.name with
    | none => exact absurd supplied first
    | some a =>
      simp only [supplied] at one
      obtain ⟨vs, _, answer⟩ := Outcome.bind_ok.mp one
      cases answer
      obtain ⟨rest, tail, answer⟩ := Outcome.bind_ok.mp run
      cases answer
      rw [List.map_cons, List.map_cons, ih others tail]

/-- Cleaning never complains about names. -/
theorem incorrect_not_cleaned {ps : List Param} {expected received : List String} :
    ps.filterMapM (cleanEntry types as) ≠ .error (.incorrectBindParameter expected received) := by
  intro failed
  obtain ⟨p, _, one⟩ := Outcome.filterMapM_error failed
  rw [cleanEntry] at one
  cases supplied : as.get? p.name with
  | none =>
    rw [supplied] at one
    cases one
  | some a =>
    rw [supplied] at one
    rcases Outcome.bind_error one with refused | ⟨_, _, answer⟩
    · rcases Param.clean_error refused with other | ⟨v, reason, other⟩ | ⟨_, _, other⟩
      · cases other
      · rcases p.refusal_cases v reason with ⟨_, same⟩ | same <;> rw [same] at other <;> cases other
      · cases other
    · cases answer

/-- Names are refused exactly when they differ, and the refusal lists them in order. -/
theorem cleanArguments_incorrect (types : Types) (distinct : r.names.Nodup)
    (once : as.names.Nodup) {expected received : List String} :
    r.cleanArguments types as = .error (.incorrectBindParameter expected received) ↔
      ¬ (∀ name, name ∈ r.names ↔ name ∈ as.names) ∧
        r.names.mergeSort (· ≤ ·) = expected ∧ as.names.mergeSort (· ≤ ·) = received := by
  rcases cleanArguments_eq types distinct once with ⟨other, refused⟩ | ⟨fits, cleans⟩
  · rw [refused]
    constructor
    · rintro ⟨⟩
      exact ⟨other, rfl, rfl⟩
    · rintro ⟨_, rfl, rfl⟩
      rfl
  · rw [cleans]
    exact ⟨fun failed => absurd failed incorrect_not_cleaned, fun ⟨other, _⟩ => absurd fits other⟩

/-- What arguments come to is listed as the parameters are. -/
theorem names_of_accepted (distinct : r.names.Nodup) (once : as.names.Nodup)
    (accepted : r.cleanArguments types as = .ok cleaned) : cleaned.map Prod.fst = r.names := by
  rcases cleanArguments_eq types distinct once with ⟨_, refused⟩ | ⟨fits, cleans⟩
  · rw [refused] at accepted
    cases accepted
  · rw [cleans] at accepted
    refine names_of_cleaned (fun p member => ?_) accepted
    have held := Named.contains_iff.mpr ((fits p.name).mp (List.mem_map_of_mem member))
    exact Option.isSome_iff_ne_none.mp held

/-- Arguments with one thing under each name come to one thing. -/
theorem cleanArguments_alike (distinct : r.names.Nodup) (once : as.names.Nodup)
    (once' : as'.names.Nodup) (same : ∀ name, as'.get? name = as.get? name) :
    r.cleanArguments types as' = r.cleanArguments types as := by
  have members (name : String) : name ∈ as'.names ↔ name ∈ as.names := by
    rw [← Named.contains_iff, ← Named.contains_iff, Named.contains, Named.contains, same]
  rcases cleanArguments_eq types distinct once with ⟨other, refused⟩ | ⟨fits, cleans⟩
  · rcases cleanArguments_eq types distinct once' with ⟨_, refused'⟩ | ⟨fits', _⟩
    · rw [refused, refused', Text.sorted_congr once' once members]
    · exact absurd (fun name => (fits' name).trans (members name)) other
  · rcases cleanArguments_eq types distinct once' with ⟨other', _⟩ | ⟨_, cleans'⟩
    · exact absurd (fun name => (fits name).trans (members name).symm) other'
    · rw [cleans, cleans']
      refine Outcome.filterMapM_congr fun p _ => ?_
      rw [cleanEntry, cleanEntry, same]

end Registry

/-! ### Query sets -/

/-- Parameters go on being attached one after the other. -/
def Query.GoesOnCollected (q q' : Query) : Prop :=
  q.params.Collected → q'.params.Collected

theorem Query.goesOnCollected_respected : Query.Respected GoesOnCollected where
  trans first next := next ∘ first
  beside params _ collected := by rwa [params]
  attach _ p j collected := Registry.collected_attach collected p j
  anew _ _ collected _ := collected

namespace QuerySet

/-- A query set as it comes about: of any query whose parameters were attached one after the other,
changed, combined and prepared, whatever else the store went through in between. -/
inductive Obtained : QuerySet → Prop where
  | given {q : Query} (collected : q.params.Collected) : Obtained (building q)
  | change {b : Builder} {s s' : QuerySet} {t t' : Store} {j j' : Journal} (before : Obtained s)
    (run : (b.apply s).exec t j = ((.ok s', t'), j')) : Obtained s'
  | intersect {s other s' : QuerySet} {t t' : Store} {j j' : Journal} (before : Obtained s)
    (beside : Obtained other) (run : (intersect other s).exec t j = ((.ok s', t'), j')) :
    Obtained s'
  | union {s other s' : QuerySet} {t t' : Store} {j j' : Journal} (before : Obtained s)
    (beside : Obtained other) (run : (union other s).exec t j = ((.ok s', t'), j')) : Obtained s'
  | prepare {v : Vendor} {s s' : QuerySet} {t t' : Store} {j j' : Journal} (before : Obtained s)
    (run : (s.prepareFor v).exec t j = ((.ok s', t'), j')) : Obtained s'

section
variable {s s' other : QuerySet} {t t' : Store} {j j' : Journal}

/-- What a change leaves is related to what it was made from. -/
private theorem collected_derive {operation : String} {change : Action Query Unit}
    (moves : Moves Query.GoesOnCollected change) (collected : s.query.params.Collected)
    (run : (derive operation change s).exec t j = ((.ok s', t'), j')) :
    s'.query.params.Collected := by
  obtain ⟨m, k, q, k', changed, rfl⟩ := derive_ok run
  have moved := moves { s.query with memo := m } k collected
  rwa [changed] at moved

private theorem collected_combine {operation : String} {op : BinaryOperator}
    (collected : s.query.params.Collected)
    (run : (combine operation op other s).exec t j = ((.ok s', t'), j')) :
    s'.query.params.Collected := by
  obtain ⟨q, _, _, _, rest⟩ := exec_bind_ok.mp run
  have moves := Query.respected_combine Query.goesOnCollected_respected q op
  exact collected_derive moves collected rest

/-- Whatever way a query set came about, its parameters were attached one after the other. -/
theorem collected_of_obtained (obtained : Obtained s) : s.query.params.Collected := by
  induction obtained with
  | given collected => exact collected
  | @change b s s' t t' j j' _ run ih =>
    obtain ⟨operation, same⟩ := b.apply_eq s
    rw [same] at run
    exact collected_derive (b.respected_change Query.goesOnCollected_respected) ih run
  | intersect _ _ run ih _ => exact collected_combine ih run
  | union _ _ run ih _ => exact collected_combine ih run
  | @prepare v s s' t t' j j' _ run ih =>
    rw [exec_prepareFor] at run
    split at run
    · cases run
      exact ih
    · split at run
      · cases run
        exact ih
      · cases run

end

/-- The arguments for a prepared query set are refused for their names exactly when these are not
the names of its parameters, and the refusal lists both in order. Those that are accepted come to
the names of the parameters with as many values each as it has placeholders, made of what was given
for the name last; and all that matters of how they were given is what was given last. -/
theorem arguments_checked {q : Query} {c : Compiled} (obtained : Obtained (.prepared q c))
    (types : Types) (given : List (String × Argument)) :
    ((∃ expected received, q.params.cleanArguments types (.ofList given) =
        .error (.incorrectBindParameter expected received)) ↔
      ¬ ∀ name, name ∈ q.params.names ↔ name ∈ given.map Prod.fst) ∧
    (∀ expected received, q.params.cleanArguments types (.ofList given) =
        .error (.incorrectBindParameter expected received) →
      expected.Pairwise (· < ·) ∧ (∀ name, name ∈ expected ↔ name ∈ q.params.names) ∧
        received.Pairwise (· < ·) ∧ ∀ name, name ∈ received ↔ name ∈ given.map Prod.fst) ∧
    (∀ cleaned, q.params.cleanArguments types (.ofList given) = .ok cleaned →
      cleaned.map Prod.fst = q.params.names ∧ q.params.names.Nodup ∧
        ∀ p ∈ q.params.params, ∃ a, Named.last? given p.name = some a ∧
          p.clean types a = .ok (Prepared.valuesOf cleaned p.name) ∧
          (Prepared.valuesOf cleaned p.name).length = p.slots) ∧
    (∀ given', (∀ name, Named.last? given' name = Named.last? given name) →
      q.params.cleanArguments types (.ofList given') =
        q.params.cleanArguments types (.ofList given)) ∧
    ∀ given', given'.Perm given → (given.map Prod.fst).Nodup →
      q.params.cleanArguments types (.ofList given') =
        q.params.cleanArguments types (.ofList given) := by
  have distinct : q.params.names.Nodup :=
    Registry.distinct_of_collected (collected_of_obtained obtained)
  obtain ⟨once, named⟩ := Named.names_ofList given
  have alike (given' : List (String × Argument))
      (same : ∀ name, Named.last? given' name = Named.last? given name) :
      q.params.cleanArguments types (.ofList given') =
        q.params.cleanArguments types (.ofList given) := by
    refine Registry.cleanArguments_alike distinct once (Named.names_ofList given').1 fun name => ?_
    rw [Named.get?_ofList, Named.get?_ofList, same]
  refine ⟨?_, ?_, ?_, alike, fun given' perm unrepeated =>
    alike given' (Named.last?_of_perm unrepeated perm)⟩
  · simp only [Registry.cleanArguments_incorrect types distinct once, named]
    exact ⟨fun ⟨_, _, other, _⟩ => other, fun other => ⟨_, _, other, rfl, rfl⟩⟩
  · intro expected received failed
    obtain ⟨_, rfl, rfl⟩ := (Registry.cleanArguments_incorrect types distinct once).mp failed
    obtain ⟨ordered, members⟩ := Text.sorted_names distinct
    obtain ⟨ordered', members'⟩ := Text.sorted_names once
    exact ⟨ordered, members, ordered', fun name => (members' name).trans (named name)⟩
  · intro cleaned accepted
    refine ⟨Registry.names_of_accepted distinct once accepted, distinct, fun p member => ?_⟩
    obtain ⟨a, supplied, values⟩ := Registry.cleaned_of_accepted distinct accepted member
    rw [Named.get?_ofList] at supplied
    exact ⟨a, supplied, values, Param.length_of_clean values⟩

section
open Library Program Prepared

/-- The authors whose name contains a text are looked for, and the search is prepared. -/
private theorem containing_obtained : ∃ c, Obtained (.prepared containing c) := by
  have all : Obtained (.building (Query.ofModel Author.model)) := .given .empty
  have narrowed : ∃ t j, ((Builder.filter (.binary .contains (.column Author.nameColumn)
      (.param soughtText))).apply (.building (Query.ofModel Author.model))).exec {} [] =
        ((.ok (.building containing), t), j) := ⟨_, _, rfl⟩
  obtain ⟨t, j, filtered⟩ := narrowed
  have walked : ∃ types, (containing.walk resolver).exec .empty [] = ((.ok (), types), []) ∧
      ∀ p ∈ containing.params.params, types.fieldType? p ≠ none := ⟨_, rfl, by decide⟩
  obtain ⟨types, walked, typed⟩ := walked
  have registered := sought_registered (q := containing) rfl (by
    simp [containing, Query.ofModel, Query.leaves, Query.frontLeaves, Query.expressions,
      Expr.leaves, Bound.leaves, Bound.zero])
  obtain ⟨a, j', compiled⟩ := compile_total (v := .postgres) registered rfl walked typed
  exact ⟨_, .prepare (.change all filtered) (exec_prepareFor_compiled (t := {}) rfl compiled)⟩

/-- A text that is given under another name is refused, whatever else is given. -/
theorem containing_checked : ∃ c, Obtained (.prepared containing c) ∧
    ∃ expected received, containing.params.cleanArguments .empty
      (.ofList [("txt", .value .null), ("text", .value .null)]) =
        .error (.incorrectBindParameter expected received) := by
  obtain ⟨c, obtained⟩ := containing_obtained
  obtain ⟨refused, _⟩ := arguments_checked obtained .empty
    [("txt", .value .null), ("text", .value .null)]
  refine ⟨c, obtained, refused.mpr fun same => ?_⟩
  have held := (same "txt").mpr (by simp)
  revert held
  decide

end

end QuerySet

end PreparedSql
