import Mathlib.Data.List.Nodup
import PreparedSql.Param.Index
import PreparedSql.Proofs.ActionRuns

/-! Registering one parameter after the other, whatever comes of each call. A call attaches its
parameter behind all others, or leaves everything as it was; so the parameters stand in the order
in which they were first attached, and no two share a name or a token. An index that is kept beside
them has exactly one place for each name and for each token, the place of the parameter that holds
it, and a lookup by the index is the search for the parameter. -/
namespace PreparedSql

open PreparedSql.Action

/-! ### Places under keys -/

/-- Among things with different keys a search finds the one that has the key. -/
theorem find?_key_iff {α : Type} {key : α → String} {xs : List α} {x : α} {s : String}
    (distinct : (xs.map key).Nodup) : xs.find? (key · == s) = some x ↔ x ∈ xs ∧ key x = s := by
  constructor
  · intro found
    exact ⟨List.mem_of_find?_eq_some found, by simpa using List.find?_some found⟩
  · rintro ⟨member, same⟩
    cases found : xs.find? (key · == s) with
    | none => exact absurd same (by simpa using List.find?_eq_none.mp found x member)
    | some y =>
      have held : y ∈ xs := List.mem_of_find?_eq_some found
      have keyed : key y = s := by simpa using List.find?_some found
      rw [List.inj_on_of_nodup_map distinct held member (keyed.trans same.symm)]

namespace Param

variable {key : Param → String} {ps : List Param} {p q : Param} {s : String}

/-- Under each key the index has the one place where a parameter has the key. -/
def Locates (key : Param → String) (index : Named Nat) (ps : List Param) : Prop :=
  ∀ s place, index.get? s = some place ↔ ∃ p, ps[place]? = some p ∧ key p = s

variable {index : Named Nat}

theorem locates_nil : Locates key {} [] := by
  intro s place
  simp [Named.get?]

/-- A parameter with a new key is put under it with its place behind all others. -/
theorem locates_append (located : Locates key index ps) (fresh : ∀ q ∈ ps, key q ≠ key p) :
    Locates key (index.put (key p) ps.length) (ps ++ [p]) := by
  intro s place
  rcases Nat.lt_trichotomy place ps.length with before | rfl | behind
  · rw [List.getElem?_append_left before, ← located s place]
    by_cases same : s = key p
    · subst same
      have absent : index.get? (key p) ≠ some place := fun found => by
        obtain ⟨q, held, keyed⟩ := (located _ _).mp found
        exact fresh q (List.mem_of_getElem? held) keyed
      simp only [Named.get?_put_self, Option.some.injEq, absent, iff_false]
      omega
    · rw [Named.get?_put_of_ne _ _ same]
  · by_cases same : s = key p
    · simp [same]
    · have absent : index.get? s ≠ some ps.length := fun found => by
        obtain ⟨q, held, _⟩ := (located _ _).mp found
        simp at held
      simp [Named.get?_put_of_ne _ _ same, absent, Ne.symm same]
  · have outside : (ps ++ [p])[place]? = none := by
      rw [List.getElem?_eq_none_iff, List.length_append, List.length_singleton]
      omega
    by_cases same : s = key p
    · simp only [same, Named.get?_put_self, Option.some.injEq, outside]
      simp; omega
    · rw [Named.get?_put_of_ne _ _ same, located s place, outside]
      rw [List.getElem?_eq_none (by omega)]

section
variable (located : Locates key index ps)
include located

theorem contains_key_iff : index.contains s = true ↔ ∃ q ∈ ps, key q = s := by
  rw [Named.contains, Option.isSome_iff_exists]
  constructor
  · rintro ⟨place, found⟩
    obtain ⟨q, held, keyed⟩ := (located s place).mp found
    exact ⟨q, List.mem_of_getElem? held, keyed⟩
  · rintro ⟨q, member, keyed⟩
    obtain ⟨place, held⟩ := List.mem_iff_getElem?.mp member
    exact ⟨place, (located s place).mpr ⟨q, held, keyed⟩⟩

/-- There is one place for each key, so there is one parameter with it. -/
theorem distinct_of_locates : (ps.map key).Nodup := by
  rw [List.nodup_iff_getElem?_ne_getElem?]
  intro i j before inside same
  rw [List.length_map] at inside
  have first := List.getElem?_eq_getElem (Nat.lt_trans before inside)
  have second := List.getElem?_eq_getElem inside
  rw [List.getElem?_map, List.getElem?_map, first, second] at same
  have keyed : key ps[i] = key ps[j] := Option.some.inj same
  have place := (located _ i).mpr ⟨_, first, keyed⟩
  rw [(located _ j).mpr ⟨_, second, rfl⟩] at place
  exact absurd (Option.some.inj place) (Nat.ne_of_gt before)

/-- What the index points at is what a search finds. -/
theorem search_of_locates (s : String) :
    ((index.get? s).bind fun place => ps[place]?) = ps.find? (key · == s) := by
  ext p
  rw [find?_key_iff (distinct_of_locates located), Option.bind_eq_some_iff]
  constructor
  · rintro ⟨place, found, held⟩
    obtain ⟨q, held', keyed⟩ := (located s place).mp found
    obtain rfl : p = q := Option.some.inj (held.symm.trans held')
    exact ⟨List.mem_of_getElem? held, keyed⟩
  · rintro ⟨member, keyed⟩
    obtain ⟨place, held⟩ := List.mem_iff_getElem?.mp member
    exact ⟨place, (located s place).mpr ⟨p, held, keyed⟩, held⟩

end

end Param

/-! ### One call -/

namespace Registry

variable {r r' r'' : Registry} {p : Param} {ps : List Param} {outcome : Except Failure Bool}
  {outcomes : List (Except Failure Bool)}

theorem exec_register (p : Param) (r : Registry) (j : Journal) :
    (register p).exec r j =
      if (r.byToken? p.token).isSome then ((.ok false, r), j)
      else if (r.get? p.name).isSome then ((.error (.duplicateParameterName p.name), r), j)
      else ((.ok true, ⟨r.params ++ [p]⟩),
        j ++ [⟨.trace, "Registered bind parameter `" ++ p.name ++ "`"⟩]) := by
  cases known : (r.byToken? p.token).isSome <;> cases named : (r.get? p.name).isSome <;>
    simp [register, exec_bind, exec_map, known, named, Except.map]

/-- What a call does to a registry. -/
inductive Called (r : Registry) (p : Param) : Except Failure Bool → Registry → Prop where
  /-- A parameter with a new token and a new name is attached behind all others. -/
  | attached (newToken : ∀ q ∈ r.params, q.token ≠ p.token)
      (newName : ∀ q ∈ r.params, q.name ≠ p.name) : Called r p (.ok true) ⟨r.params ++ [p]⟩
  /-- The parameter was attached before. -/
  | known (held : ∃ q ∈ r.params, q.token = p.token) : Called r p (.ok false) r
  /-- Another parameter holds the name. -/
  | refused (newToken : ∀ q ∈ r.params, q.token ≠ p.token)
      (held : ∃ q ∈ r.params, q.name = p.name) :
    Called r p (.error (.duplicateParameterName p.name)) r

/-- Calls one after the other, with what comes of each. -/
inductive Calls : Registry → List Param → List (Except Failure Bool) → Registry → Prop where
  | nil (r : Registry) : Calls r [] [] r
  | cons {r r' r'' : Registry} {p : Param} {ps : List Param} {outcome : Except Failure Bool}
      {outcomes : List (Except Failure Bool)} (call : Called r p outcome r')
      (rest : Calls r' ps outcomes r'') : Calls r (p :: ps) (outcome :: outcomes) r''

/-- The parameters whose calls attached them. -/
def newlyAttached (ps : List Param) (outcomes : List (Except Failure Bool)) : List Param :=
  (ps.zip outcomes).filterMap fun (p, outcome) =>
    match outcome with
    | .ok true => some p
    | _ => none

theorem byToken?_isSome {token : String} :
    (r.byToken? token).isSome = true ↔ ∃ q ∈ r.params, q.token = token := by
  simp [byToken?, List.find?_isSome]

theorem get?_isSome {name : String} :
    (r.get? name).isSome = true ↔ ∃ q ∈ r.params, q.name = name := by
  simp [get?, List.find?_isSome]

theorem called_register (r : Registry) (p : Param) (j : Journal) :
    Called r p ((register p).exec r j).1.1 ((register p).exec r j).1.2 := by
  rw [exec_register]
  split
  · next held => exact .known (byToken?_isSome.mp held)
  · next new =>
    have newToken : ∀ q ∈ r.params, q.token ≠ p.token := fun q member same =>
      new (byToken?_isSome.mpr ⟨q, member, same⟩)
    split
    · next held => exact .refused newToken (get?_isSome.mp held)
    · next new' =>
      exact .attached newToken fun q member same => new' (get?_isSome.mpr ⟨q, member, same⟩)

/-- The parameters stand in the order in which they were attached. -/
theorem params_of_calls (calls : Calls r ps outcomes r') :
    r'.params = r.params ++ newlyAttached ps outcomes := by
  induction calls with
  | nil r => simp [newlyAttached]
  | cons call rest ih =>
    rw [ih]
    cases call <;> simp [newlyAttached]

end Registry

/-! ### The index -/

namespace IndexedRegistry

variable {k k' : IndexedRegistry} {r : Registry} {p : Param}

/-- The index is one of the registry: it has the same parameters, and a place for each of their
names and tokens and for nothing else. -/
structure Indexes (k : IndexedRegistry) (r : Registry) : Prop where
  params : k.params = r.params
  byName : Param.Locates Param.name k.byName r.params
  byToken : Param.Locates Param.token k.byToken r.params

theorem indexes_empty : Indexes {} {} := ⟨rfl, Param.locates_nil, Param.locates_nil⟩

theorem exec_register (p : Param) (k : IndexedRegistry) (j : Journal) :
    (register p).exec k j =
      if k.byToken.contains p.token then ((.ok false, k), j)
      else if k.byName.contains p.name then ((.error (.duplicateParameterName p.name), k), j)
      else ((.ok true, ⟨k.params ++ [p], k.byName.put p.name k.params.length,
          k.byToken.put p.token k.params.length⟩),
        j ++ [⟨.trace, "Registered bind parameter `" ++ p.name ++ "`"⟩]) := by
  cases known : k.byToken.contains p.token <;> cases named : k.byName.contains p.name <;>
    simp [register, exec_bind, exec_map, known, named, Except.map]

/-- A call comes to the same with an index and without, and leaves an index behind. -/
theorem indexes_register (indexes : k.Indexes r) (p : Param) (j : Journal) :
    ∃ k', (register p).exec k j = ((((Registry.register p).exec r j).1.1, k'),
      ((Registry.register p).exec r j).2) ∧ k'.Indexes ((Registry.register p).exec r j).1.2 := by
  have token : k.byToken.contains p.token = (r.byToken? p.token).isSome :=
    Bool.eq_iff_iff.mpr ((Param.contains_key_iff indexes.byToken).trans
      Registry.byToken?_isSome.symm)
  have name : k.byName.contains p.name = (r.get? p.name).isSome :=
    Bool.eq_iff_iff.mpr ((Param.contains_key_iff indexes.byName).trans Registry.get?_isSome.symm)
  rw [exec_register, Registry.exec_register, token, name]
  split
  · exact ⟨k, rfl, indexes⟩
  · next newToken =>
    split
    · exact ⟨k, rfl, indexes⟩
    · next newName =>
      refine ⟨_, rfl, ?_, ?_, ?_⟩
      · rw [indexes.params]
      · rw [indexes.params]
        exact Param.locates_append indexes.byName fun q member same =>
          newName (Registry.get?_isSome.mpr ⟨q, member, same⟩)
      · rw [indexes.params]
        exact Param.locates_append indexes.byToken fun q member same =>
          newToken (Registry.byToken?_isSome.mpr ⟨q, member, same⟩)

section
variable (indexes : k.Indexes r)
include indexes

theorem get?_of_indexes (name : String) : k.get? name = r.get? name := by
  rw [get?, indexes.params]
  exact Param.search_of_locates indexes.byName name

theorem byToken?_of_indexes (token : String) : k.byToken? token = r.byToken? token := by
  rw [byToken?, indexes.params]
  exact Param.search_of_locates indexes.byToken token

end

end IndexedRegistry

/-! ### A run of calls -/

/-- One call for each item, whatever came of those before. -/
def Action.attempts {σ α β : Type} (call : α → Action σ β) (xs : List α) :
    Action σ (List (Except Failure β)) :=
  xs.mapM fun x => (call x).attempt

theorem Action.exec_attempts_cons {σ α β : Type} {call : α → Action σ β} {x : α} {xs : List α}
    {s s' s'' : σ} {j j' j'' : Journal} {outcome : Except Failure β}
    {outcomes : List (Except Failure β)} (first : (call x).exec s j = ((outcome, s'), j'))
    (rest : (attempts call xs).exec s' j' = ((.ok outcomes, s''), j'')) :
    (attempts call (x :: xs)).exec s j = ((.ok (outcome :: outcomes), s''), j'') := by
  rw [attempts, List.mapM_cons]
  refine exec_bind_ok.mpr ⟨outcome, s', j', ?_, exec_bind_ok.mpr ⟨outcomes, s'', j'', rest, rfl⟩⟩
  rw [exec_attempt, first]

namespace Registry

/-- A run of calls does what its calls do, with an index and without. -/
theorem calls_of_run {k : IndexedRegistry} {r : Registry} (indexes : k.Indexes r) (ps : List Param)
    (j : Journal) : ∃ outcomes r' k' j', Calls r ps outcomes r' ∧ k'.Indexes r' ∧
      (attempts register ps).exec r j = ((.ok outcomes, r'), j') ∧
      (attempts IndexedRegistry.register ps).exec k j = ((.ok outcomes, k'), j') := by
  induction ps generalizing k r j with
  | nil => exact ⟨[], r, k, j, .nil r, indexes, rfl, rfl⟩
  | cons p ps ih =>
    have call := called_register r p j
    obtain ⟨middle, indexed, indexes'⟩ := IndexedRegistry.indexes_register indexes p j
    obtain ⟨outcomes, r', k', j', calls, kept, run, runIndexed⟩ :=
      ih indexes' ((register p).exec r j).2
    exact ⟨_, r', k', j', .cons call calls, kept, exec_attempts_cons rfl run,
      exec_attempts_cons indexed runIndexed⟩

/-- Whatever parameters are registered one after the other, each call attaches its parameter, finds
it attached or refuses its name, and changes nothing in the last two cases. The registry then holds
the parameters in the order in which they were attached, no two of them share a name or a token, and
a lookup finds exactly the parameter that has the name or the token; with an index all calls and all
lookups come to the same, and the index has a place for the names and tokens that are held and for
no other. -/
theorem registry_indexed (ps : List Param) (j : Journal) : ∃ outcomes r k j',
    (attempts register ps).exec {} j = ((.ok outcomes, r), j') ∧
      (attempts IndexedRegistry.register ps).exec {} j = ((.ok outcomes, k), j') ∧
      Calls {} ps outcomes r ∧ r.params = newlyAttached ps outcomes ∧
      r.names.Nodup ∧ (r.params.map Param.token).Nodup ∧
      (∀ name p, r.get? name = some p ↔ p ∈ r.params ∧ p.name = name) ∧
      (∀ token p, r.byToken? token = some p ↔ p ∈ r.params ∧ p.token = token) ∧
      k.Indexes r ∧ (∀ name, k.get? name = r.get? name) ∧
      ∀ token, k.byToken? token = r.byToken? token := by
  obtain ⟨outcomes, r, k, j', calls, indexes, run, runIndexed⟩ :=
    calls_of_run IndexedRegistry.indexes_empty ps j
  have names : r.names.Nodup := Param.distinct_of_locates indexes.byName
  have tokens := Param.distinct_of_locates indexes.byToken
  exact ⟨outcomes, r, k, j', run, runIndexed, calls, params_of_calls calls, names, tokens,
    fun name p => find?_key_iff names, fun token p => find?_key_iff tokens, indexes,
    IndexedRegistry.get?_of_indexes indexes, IndexedRegistry.byToken?_of_indexes indexes⟩

end Registry

end PreparedSql
