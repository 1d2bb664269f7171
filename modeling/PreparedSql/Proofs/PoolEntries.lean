import PreparedSql.Session.Pool

/-! What the pool knows of one connection, after everything that may happen to
the pool. Connections that somebody holds are never forgotten in passing. -/
namespace PreparedSql.Pool

variable {p : Pool} {hs : Handles} {h k : Handle} {name other : String}

theorem contains_iff : p.contains h name ↔ ∃ names, p.names? h = some names ∧ name ∈ names := by
  unfold contains
  cases p.names? h with
  | none => simp
  | some names => simp

theorem mem_insertName {names : List String} :
    other ∈ insertName name names ↔ other = name ∨ other ∈ names := by
  unfold insertName
  split
  · next known =>
    constructor
    · exact .inr
    · rintro (rfl | member)
      · simpa using known
      · exact member
  · rw [List.mem_append, List.mem_singleton, or_comm]

private theorem find?_filter_key (keep : Handle → Bool) (kept : keep h)
    (entries : List (Handle × List String)) :
    (entries.filter fun (k, _) => keep k).find? (·.1 == h) = entries.find? (·.1 == h) := by
  rw [List.find?_filter]
  congr 1
  funext e
  by_cases same : e.1 = h
  · simp [same, kept]
  · simp [same]

/-- The entries of handles that somebody holds stay when the others are forgotten. -/
theorem names?_prune : (p.prune hs).names? h = if hs.isAlive h then p.names? h else none := by
  by_cases alive : hs.isAlive h
  · rw [if_pos alive, names?, names?, prune, find?_filter_key _ alive]
  · rw [if_neg alive, names?, prune, Option.map_eq_none_iff, List.find?_eq_none]
    intro e member
    obtain ⟨_, held⟩ := List.mem_filter.mp member
    intro same
    obtain rfl : e.1 = h := by simpa using same
    exact alive held

theorem names?_forget : (p.forget h).names? k = if k = h then none else p.names? k := by
  by_cases same : k = h
  · subst same
    rw [if_pos rfl, names?, forget, Option.map_eq_none_iff, List.find?_eq_none]
    simp
  · have others := find?_filter_key (h := k) (fun e => e != h) (by simpa using same) p.entries
    rw [if_neg same, names?, names?, forget, others]

private theorem names?_map (change : Handle → List String → List String) :
    (Pool.mk (p.entries.map fun (k, names) => (k, change k names))).names? h =
      (p.names? h).map (change h) := by
  rw [names?, names?, List.find?_map, Option.map_map, Option.map_map]
  have keys : ((fun e : Handle × List String => e.1 == h) ∘
      fun (k, names) => (k, change k names)) = (·.1 == h) := rfl
  rw [keys]
  refine Option.map_congr fun e found => ?_
  obtain rfl : e.1 = h := by simpa using List.find?_some found
  rfl

private theorem names?_append (names : List String) :
    (Pool.mk (p.entries ++ [(h, names)])).names? k =
      (p.names? k).or (if k = h then some names else none) := by
  rw [names?, List.find?_append, Option.map_or]
  congr 1
  by_cases same : k = h
  · simp [same]
  · have apart : (h == k) = false := by simpa using fun known => same known.symm
    simp [same, apart]

private theorem record_known {names : List String} (known : p.names? h = some names) :
    p.record hs h name =
      ⟨p.entries.map fun (k, names) => (k, if k = h then insertName name names else names)⟩ := by
  rw [record, known]

private theorem record_unknown (unknown : p.names? h = none) :
    p.record hs h name = ⟨(p.prune hs).entries ++ [(h, [name])]⟩ := by
  rw [record, unknown]

theorem names?_record_self {names : List String} (known : p.names? h = some names) :
    (p.record hs h name).names? h = some (insertName name names) := by
  rw [record_known known, names?_map fun k names => if k = h then insertName name names else names]
  simp [known]

/-- A new name of one handle leaves the entries of the others, but for those
that nobody holds. -/
theorem names?_record_of_ne (p : Pool) (hs : Handles) (name : String) (differ : k ≠ h) :
    (p.record hs h name).names? k = p.names? k ∨
      hs.isAlive k = false ∧ (p.record hs h name).names? k = none := by
  cases known : p.names? h with
  | some names =>
    rw [record_known known,
      names?_map fun k names => if k = h then insertName name names else names]
    simp [differ]
  | none =>
    rw [record_unknown known, names?_append, if_neg differ, Option.or_none, names?_prune]
    cases alive : hs.isAlive k <;> simp

theorem contains_forget : (p.forget h).contains k name ↔ k ≠ h ∧ p.contains k name := by
  rw [contains_iff, contains_iff, names?_forget]
  by_cases same : k = h <;> simp [same]

theorem contains_prune : (p.prune hs).contains h name ↔ hs.isAlive h ∧ p.contains h name := by
  rw [contains_iff, contains_iff, names?_prune]
  by_cases alive : hs.isAlive h <;> simp [alive]

/-- A name that is recorded is known, and the names known before stay known. -/
theorem contains_record_self :
    (p.record hs h name).contains h other ↔ other = name ∨ p.contains h other := by
  rw [contains_iff, contains_iff]
  cases known : p.names? h with
  | some names =>
    rw [record_known known,
      names?_map fun k names => if k = h then insertName name names else names]
    simp [known, mem_insertName]
  | none =>
    rw [record_unknown known, names?_append, names?_prune, known]
    simp

/-- Recording a name leaves what is known of other handles that somebody holds. -/
theorem contains_record_of_ne (differ : k ≠ h) (alive : hs.isAlive k) :
    (p.record hs h name).contains k other ↔ p.contains k other := by
  rcases names?_record_of_ne p hs name differ with same | ⟨dead, _⟩
  · rw [contains_iff, contains_iff, same]
  · rw [alive] at dead
    cases dead

/-- Recording a name makes nothing else known. -/
theorem contains_of_record (known : (p.record hs h name).contains k other) :
    (k = h ∧ other = name) ∨ p.contains k other := by
  by_cases same : k = h
  · subst same
    rcases contains_record_self.mp known with new | old
    · exact .inl ⟨rfl, new⟩
    · exact .inr old
  · obtain ⟨names, found, member⟩ := contains_iff.mp known
    rcases names?_record_of_ne p hs name same with kept | ⟨_, lost⟩
    · exact .inr (contains_iff.mpr ⟨names, kept ▸ found, member⟩)
    · rw [lost] at found
      cases found

end PreparedSql.Pool
