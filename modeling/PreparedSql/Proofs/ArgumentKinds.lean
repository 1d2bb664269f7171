import PreparedSql.Prepared.Execution
import PreparedSql.Proofs.CleaningOutcomes
import PreparedSql.Proofs.WritableLiterals

/-! Cleaned arguments are of the kind that their parameter is bound as. Whatever
value is supplied, NULL or not, cleaning answers a value whose NULL is the one
that describes the field type, and every parameter finds its own values again
under its name. No type is for moments with an offset, so all cleaned values have
literals. -/
namespace PreparedSql

/-! ### Values of a field type -/

namespace FieldType

variable {t : FieldType} {v x : Value}

theorem prototype_valuePrototype (t : FieldType) : t.valuePrototype.prototype = t.valuePrototype := by
  induction t with
  | foreignKey target ih => exact ih
  | _ => rfl

/-- A value that was cleaned is of the kind that carries the type. -/
theorem prototype_cleanPresent (cleaned : t.cleanPresent v = .ok x) :
    x.prototype = t.valuePrototype := by
  cases t <;> simp only [cleanPresent, reduceCtorEq] at cleaned
  case smallInteger | positiveSmallInteger | integer | positiveInteger | bigInteger =>
    obtain ⟨n, _, _, rfl⟩ := (cleanIntegerAs_answers _ _ v).answered x cleaned
    rfl
  case float =>
    obtain ⟨y, rfl⟩ := (cleanFloat_answers v).answered x cleaned
    rfl
  case decimal precision scale =>
    obtain ⟨d, rfl, _⟩ := (cleanDecimal_answers precision scale v).answered x cleaned
    rfl
  case boolean | nullBoolean =>
    obtain ⟨b, rfl⟩ := (cleanBoolean_answers v).answered x cleaned
    rfl
  case char n | text | email n | url n | slug n =>
    obtain ⟨s, rfl, _⟩ := (cleanText_answers (by simp) v).answered x cleaned
    rfl
  case ipAddress =>
    obtain ⟨s, a, _, rfl⟩ := (cleanAddress_answers v).answered x cleaned
    rfl
  case binary =>
    obtain ⟨b, rfl⟩ := (cleanBinary_answers v).answered x cleaned
    rfl
  case date =>
    obtain ⟨d, rfl⟩ := (cleanDate_answers v).answered x cleaned
    rfl
  case dateTime =>
    obtain ⟨m, rfl⟩ := (cleanMoment_answers v).answered x cleaned
    rfl
  case time =>
    obtain ⟨y, rfl⟩ := (cleanTime_answers v).answered x cleaned
    rfl
  case uuid =>
    obtain ⟨u, rfl⟩ := (cleanUuid_answers v).answered x cleaned
    rfl

/-- Cleaning answers a value of the kind that carries the type, or its NULL. -/
theorem prototype_clean {nullable : Bool} (cleaned : t.clean v nullable = .ok x) :
    x.prototype = t.valuePrototype := by
  unfold clean at cleaned
  split at cleaned
  · split at cleaned
    · cases cleaned
      exact prototype_valuePrototype t
    · cases cleaned
  · rw [prototype_cleanPresent cleaned, valuePrototype_bindType]

/-- No type is carried by moments with an offset, nor by lists. -/
theorem inCalendar_of_prototype (kind : x.prototype = t.valuePrototype) : x.inCalendar = true := by
  have other : t.valuePrototype ≠ .zoned none ∧ ∀ element, t.valuePrototype ≠ .list none element := by
    clear kind
    induction t with
    | foreignKey target ih => exact ih
    | _ => simp [valuePrototype]
  rw [← kind] at other
  cases x with
  | zoned => exact absurd rfl other.1
  | list _ element => exact absurd rfl (other.2 _)
  | _ => rfl

end FieldType

/-! ### Values of a parameter -/

namespace Param

variable {p : Param} {types : Types} {t : FieldType} {nullable : Bool} {v w : Value}

/-- Cleaning one value takes what the type takes, and tells the value with the reason otherwise. -/
theorem cleanOne_ok : p.cleanOne t nullable v = .ok w ↔ t.clean v nullable = .ok w := by
  unfold cleanOne
  cases t.clean v nullable with
  | ok x => constructor <;> (rintro ⟨⟩; rfl)
  | error reason => constructor <;> rintro ⟨⟩

theorem cleanOne_error {failure : Failure} : p.cleanOne t nullable v = .error failure ↔
    ∃ reason, t.clean v nullable = .error reason ∧ p.refusal v reason = failure := by
  unfold cleanOne
  cases t.clean v nullable with
  | ok x =>
    constructor
    · intro same
      cases same
    · rintro ⟨_, same, _⟩
      cases same
  | error reason =>
    constructor
    · rintro ⟨⟩
      exact ⟨reason, rfl, rfl⟩
    · rintro ⟨_, ⟨⟩, rfl⟩
      rfl

/-- A refusal tells the value with the reason, or only that the value has no literal. -/
theorem refusal_cases (p : Param) (v : Value) (reason : Reason) :
    (∃ text, p.refusal v reason = .invalidParameterType p.name text reason) ∨
      p.refusal v reason = .conversion .outsideCalendar := by
  unfold refusal
  split
  · exact .inl ⟨_, rfl⟩
  · next unwritten =>
    obtain ⟨rfl, _⟩ := Flavor.outside_of_unwritten unwritten
    exact .inr rfl

/-- Every value for a placeholder of a parameter is of the kind of its type. -/
theorem prototype_of_clean {a : Argument} {vs : List Value} (typed : types.fieldType? p = some t)
    (cleaned : p.clean types a = .ok vs) : ∀ v ∈ vs, v.prototype = t.valuePrototype := by
  simp only [clean, typed] at cleaned
  cases sized : p.size with
  | none =>
    simp only [sized] at cleaned
    obtain ⟨x, one, answer⟩ := Outcome.bind_ok.mp cleaned
    cases answer
    intro v member
    rw [List.mem_singleton.mp member]
    exact FieldType.prototype_clean (cleanOne_ok.mp one)
  | some size =>
    simp only [sized] at cleaned
    obtain ⟨items, _, rest⟩ := Outcome.bind_ok.mp cleaned
    split at rest
    · cases rest
    obtain ⟨front, mapped, answer⟩ := Outcome.bind_ok.mp rest
    cases answer
    intro v member
    rcases List.mem_append.mp member with supplied | filled
    · obtain ⟨length, each⟩ := Outcome.mapM_ok mapped
      obtain ⟨i, inside, rfl⟩ := List.getElem_of_mem supplied
      have bounded : i < items.length := by rwa [← length]
      obtain ⟨y, found, one⟩ := each i items[i] (List.getElem?_eq_getElem bounded)
      rw [List.getElem?_eq_getElem inside] at found
      cases found
      exact FieldType.prototype_clean (cleanOne_ok.mp one)
    · rw [(List.mem_replicate.mp filled).2]
      exact FieldType.prototype_valuePrototype t

/-- No parameter takes a moment that the calendar does not have at UTC. -/
theorem inCalendar_of_clean {a : Argument} {vs : List Value} (cleaned : p.clean types a = .ok vs) :
    ∀ v ∈ vs, v.inCalendar = true := by
  cases typed : types.fieldType? p with
  | none =>
    simp only [clean, typed] at cleaned
    cases cleaned
  | some t =>
    exact fun v member => FieldType.inCalendar_of_prototype (prototype_of_clean typed cleaned v member)

/-- There are as many values as the parameter has placeholders. -/
theorem length_of_clean {a : Argument} {vs : List Value} (cleaned : p.clean types a = .ok vs) :
    vs.length = p.slots := by
  unfold clean at cleaned
  split at cleaned
  · cases cleaned
  · unfold slots
    cases sized : p.size with
    | none =>
      simp only [sized] at cleaned
      obtain ⟨_, _, answer⟩ := Outcome.bind_ok.mp cleaned
      cases answer
      rfl
    | some size =>
      simp only [sized] at cleaned
      obtain ⟨items, _, rest⟩ := Outcome.bind_ok.mp cleaned
      split at rest
      · cases rest
      next fits =>
      obtain ⟨front, mapped, answer⟩ := Outcome.bind_ok.mp rest
      cases answer
      have length := (Outcome.mapM_ok mapped).1
      rw [List.length_append, List.length_replicate, Option.getD_some]
      omega

end Param

/-! ### Values under the name of a parameter -/

namespace Registry

variable {r : Registry} {types : Types} {as : Arguments} {cleaned : CleanedArguments} {p : Param}

private theorem cleaned_of_filterMapM {ps : List Param} (distinct : (ps.map Param.name).Nodup)
    (run : (ps.filterMapM fun p =>
      match as.get? p.name with
      | none => pure none
      | some a => do return some (p.name, ← p.clean types a)) = Except.ok cleaned)
    (member : p ∈ ps) {a : Argument} (supplied : as.get? p.name = some a) :
    p.clean types a = .ok (Prepared.valuesOf cleaned p.name) := by
  induction ps generalizing cleaned with
  | nil => cases member
  | cons first rest ih =>
    rw [List.map_cons, List.nodup_cons] at distinct
    obtain ⟨fresh, distinct⟩ := distinct
    rw [List.filterMapM_cons] at run
    obtain ⟨entry, one, run⟩ := Outcome.bind_ok.mp run
    rcases List.mem_cons.mp member with rfl | later
    · simp only [supplied] at one
      obtain ⟨vs, inner, answer⟩ := Outcome.bind_ok.mp one
      cases answer
      obtain ⟨others, _, answer⟩ := Outcome.bind_ok.mp run
      cases answer
      simpa [Prepared.valuesOf] using inner
    · have foreign : first.name ≠ p.name := by
        intro same
        exact fresh (same ▸ List.mem_map_of_mem later)
      cases entry with
      | none => exact ih distinct run later
      | some entry =>
        obtain ⟨others, tail, answer⟩ := Outcome.bind_ok.mp run
        cases answer
        have named : entry.1 = first.name := by
          cases held : as.get? first.name with
          | none =>
            simp only [held] at one
            cases one
          | some a =>
            simp only [held] at one
            obtain ⟨vs, _, answer⟩ := Outcome.bind_ok.mp one
            cases answer
            rfl
        have skipped : (entry.1 == p.name) = false := by simpa [named] using foreign
        rw [ih distinct tail later, Prepared.valuesOf, Prepared.valuesOf, List.find?_cons, skipped]

/-- Accepted arguments have one for every parameter, and its cleaned values are
those under the name of the parameter. -/
theorem cleaned_of_accepted (distinct : r.names.Nodup)
    (accepted : r.cleanArguments types as = .ok cleaned) (member : p ∈ r.params) :
    ∃ a, as.get? p.name = some a ∧ p.clean types a = .ok (Prepared.valuesOf cleaned p.name) := by
  unfold cleanArguments at accepted
  split at accepted
  · cases accepted
  · next fitting =>
    have listed : p.name ∈ r.names := List.mem_map_of_mem member
    have held : as.contains p.name := by
      have all := (not_or.mp fitting).2
      simp only [Bool.not_eq_true, Bool.not_eq_false'] at all
      exact List.all_eq_true.mp all _ listed
    obtain ⟨a, supplied⟩ := Option.isSome_iff_exists.mp held
    exact ⟨a, supplied, cleaned_of_filterMapM distinct accepted member supplied⟩

/-- The calendar has all values that arguments are accepted as. -/
theorem inCalendar_of_accepted (accepted : r.cleanArguments types as = .ok cleaned)
    (name : String) : ∀ v ∈ Prepared.valuesOf cleaned name, v.inCalendar = true := by
  unfold cleanArguments at accepted
  split at accepted
  · cases accepted
  · intro v member
    unfold Prepared.valuesOf at member
    cases found : cleaned.find? (·.1 == name) with
    | none =>
      rw [found] at member
      cases member
    | some entry =>
      rw [found] at member
      obtain ⟨p, _, one⟩ :=
        Outcome.mem_of_filterMapM accepted entry (List.mem_of_find?_eq_some found)
      split at one
      · cases one
      · obtain ⟨vs, clean, answer⟩ := Outcome.bind_ok.mp one
        cases answer
        exact Param.inCalendar_of_clean clean v member

end Registry

end PreparedSql
