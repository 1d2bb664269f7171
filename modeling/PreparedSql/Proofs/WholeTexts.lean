import PreparedSql.Proofs.SliceContract

/-! Reading a whole text is taking all of it from its front. That is so for every type with a program
of its own, and where there is none nothing is read either way. A type whose member may be missing
goes another way: its whole texts are those of the type inside, while the front of a text is refused,
so that what is read as a whole cannot be taken. -/
namespace PreparedSql.Native

variable {t : Native} {s : String}

theorem ne_optional (plain : t.isOptional = false) (u : Native) : t ≠ optional u := by
  rintro rfl
  cases plain

/-- A program takes all of a text when the reader of the type leaves nothing of it. -/
theorem take_all_iff {x : t.Carrier} : t.take.run s = .ok x "" ↔ extract t s = .ok (x, "") := by
  rw [take_run]
  cases extract t s with
  | error fault => exact iff_of_false nofun nofun
  | ok taken =>
    obtain ⟨y, rest⟩ := taken
    constructor
    · intro all
      cases all
      rfl
    · intro all
      cases all
      rfl

/-- The text as a whole stands for the member: the program of the type takes all of it, or it stands
for what a member that may be missing is made of. -/
def StandsWhole (s : String) : (t : Native) → t.Carrier → Prop
  | optional t, y => ∃ x, StandsWhole s t x ∧ some x = y
  | t, x => t.take.run s = .ok x ""

theorem standsWhole_of_plain {x : t.Carrier} (plain : t.isOptional = false) :
    StandsWhole s t x ↔ t.take.run s = .ok x "" := by
  cases t with
  | optional t => cases plain
  | _ => exact Iff.rfl

/-- A member that may be missing is never taken from the front of a text. -/
theorem not_take_optional (y : (optional t).Carrier) (rest : String) :
    (optional t).take.run s ≠ .ok y rest := by
  rw [take_run]
  exact nofun

theorem parse_iff_standsWhole {x : t.Carrier} : parse t s = .ok x ↔ StandsWhole s t x := by
  induction t with
  | optional t ih =>
    rw [StandsWhole, parse]
    cases read : parse t s with
    | error fault =>
      constructor
      · intro made
        cases made
      · rintro ⟨y, whole, -⟩
        have none := ih.mpr whole
        rw [read] at none
        cases none
    | ok y =>
      constructor
      · intro made
        cases made
        exact ⟨y, ih.mp read, rfl⟩
      · rintro ⟨z, whole, rfl⟩
        have same := ih.mpr whole
        rw [read] at same
        cases same
        rfl
  | _ =>
    rw [standsWhole_of_plain rfl, take_all_iff]
    exact ⟨extract_of_parse (ne_optional rfl), parse_ok (ne_optional rfl)⟩

/-- A whole text is read as what it stands for. That is what the program of the type takes when it
takes all of the text, except where a member may be missing and the text stands for one. -/
theorem whole_texts_taken (t : Native) (s : String) :
    (∀ x, parse t s = .ok x ↔ StandsWhole s t x) ∧
    ((∀ x, parse t s = .ok x ↔ t.take.run s = .ok x "") ↔
      t.isOptional = false ∨ ∀ x, ¬ StandsWhole s t x) := by
  refine ⟨fun x => parse_iff_standsWhole, ⟨fun taken => ?_, fun settled x => ?_⟩⟩
  · cases t with
    | optional t =>
      exact .inr fun y whole =>
        not_take_optional y "" ((taken y).mp (parse_iff_standsWhole.mpr whole))
    | _ => exact .inl rfl
  · rw [parse_iff_standsWhole]
    rcases settled with plain | nothing
    · exact standsWhole_of_plain plain
    · refine iff_of_false (nothing x) fun all => ?_
      have read : parse t s = .ok x := by
        cases t with
        | optional t => exact absurd all (not_take_optional x "")
        | _ => exact parse_ok (ne_optional rfl) (take_all_iff.mp all)
      exact nothing x (parse_iff_standsWhole.mp read)

/-- A digit is a whole number that may be missing, and nothing is taken from its front. -/
theorem digit_optional_not_taken :
    parse (optional (int .int32)) "5" = .ok (some ⟨5, by decide⟩) ∧
      (optional (int .int32)).take.run "5" =
        .error (.unreadable "5" (optional (int .int32))) "5" ∧
      (int .int32).take.run "5" = .ok ⟨5, by decide⟩ "" := by
  refine ⟨rfl, rfl, rfl⟩

end PreparedSql.Native
