import PreparedSql.Schema.Cleaning

/-! What each way of cleaning answers. An answer has the shape that the cleaner promises, with the
limits that it checked; a refusal gives a reason of the value's own and never that a type was not
one that parameters are bound as. -/
namespace PreparedSql.FieldType

variable {α β : Type} {v : Value}

/-- An answer has the property, and a refusal does not blame the type. -/
structure Answers (cleaned : Cleaned α) (property : α → Prop) : Prop where
  answered : ∀ x, cleaned = .ok x → property x
  refused : cleaned ≠ .error .notABindType

section

variable {a : Cleaned α} {p : α → Prop} {q : β → Prop} {reason : Reason}

theorem answers_ok {x : α} (met : p x) : Answers (.ok x) p :=
  ⟨fun _ same => Except.ok.inj same ▸ met, nofun⟩

theorem answers_error (own : reason ≠ .notABindType) : Answers (.error reason) p :=
  ⟨nofun, fun same => own (Except.error.inj same)⟩

theorem answers_mono {p' : α → Prop} (weaker : ∀ x, p x → p' x) (answers : Answers a p) :
    Answers a p' :=
  ⟨fun x same => weaker x (answers.answered x same), answers.refused⟩

/-- An answer of a known shape has what every value of the shape has. -/
theorem answers_shape {γ : Type} {shape : γ → α} (answers : Answers a fun x => ∃ y, x = shape y)
    (each : ∀ y, p (shape y)) : Answers a p := by
  refine answers_mono ?_ answers
  rintro _ ⟨y, rfl⟩
  exact each y

theorem answers_bind {f : α → Cleaned β} (first : Answers a p) (rest : ∀ x, p x → Answers (f x) q) :
    Answers (a >>= f) q := by
  cases a with
  | ok x => exact rest x (first.answered x rfl)
  | error reason =>
    refine answers_error fun same => ?_
    exact first.refused (congrArg Except.error same)

theorem answers_orReason {converted : Except ConversionFault α} {reason : ConversionFault → Reason}
    (own : ∀ fault, reason fault ≠ .notABindType) (met : ∀ x, converted = .ok x → p x) :
    Answers (orReason reason converted) p := by
  cases converted with
  | ok x => exact answers_ok (met x rfl)
  | error fault => exact answers_error (own fault)

theorem answers_converted {converted : Except ConversionFault α}
    {reason : ConversionFault → Reason} {make : α → β} (own : ∀ fault, reason fault ≠ .notABindType)
    (met : ∀ x, q (make x)) : Answers ((orReason reason converted).map make) q := by
  cases converted with
  | ok x => exact answers_ok (met x)
  | error fault => exact answers_error (own fault)

/-- What stands behind a check is reached where the check holds off. -/
theorem answers_unless {refused : Prop} [Decidable refused] {f : α → Cleaned β}
    {rest : Cleaned β} (own : reason ≠ .notABindType) (met : ¬ refused → Answers rest q) :
    Answers (if refused then throw reason >>= f else rest) q := by
  split
  · exact answers_error own
  · next passed => exact met passed

end

theorem cleanInteger_answers (v : Value) (least greatest : Int) :
    Answers (cleanInteger v least greatest) fun n => (least ≤ n ∧ n ≤ greatest) ∧
      ∃ m, Native.ofValue (.int .int64) v = .ok m ∧ n = m.value := by
  unfold cleanInteger
  dsimp only
  split
  · exact answers_error (by simp)
  · exact answers_error (by simp)
  · exact answers_error (by simp)
  · have read : Answers (orReason .notConverted (Native.ofValue (.int .int64) v)) fun m =>
        Native.ofValue (.int .int64) v = .ok m :=
      answers_orReason (by simp) fun m converted => converted
    refine answers_bind read fun m converted => ?_
    refine answers_unless (by simp) fun above => answers_unless (by simp) fun below => ?_
    exact answers_ok ⟨⟨Int.not_lt.mp above, Int.not_lt.mp below⟩, m, converted, rfl⟩

/-- A whole number within the limits is taken for what it is. -/
theorem cleanInteger_within {k : IntKind} {n : Ranged k} {m : Ranged .int64} {least greatest : Int}
    (same : m.value = n.value) (above : least ≤ n.value) (below : n.value ≤ greatest) :
    cleanInteger (.int k (some n)) least greatest = .ok n.value := by
  have read : Native.ofValue (.int .int64) (.int k (some n)) = .ok m := Native.ofValue_int same
  unfold cleanInteger
  dsimp only
  rw [read]
  show (if m.value < least then _ else _) = _
  rw [same, if_neg (Int.not_lt.mpr above)]
  show (if greatest < n.value then _ else _) = _
  rw [if_neg (Int.not_lt.mpr below)]
  rfl

theorem cleanIntegerAs_answers (t : FieldType) (k : IntKind) (v : Value) :
    Answers (t.cleanIntegerAs k v) fun x => ∃ n : Int,
      (t.integerRange.1 ≤ n ∧ n ≤ t.integerRange.2) ∧
      (∃ m, Native.ofValue (.int .int64) v = .ok m ∧ n = m.value) ∧
      x = .int k (some (.clamp k n)) :=
  answers_bind (cleanInteger_answers v _ _) fun n ⟨range, read⟩ => answers_ok ⟨n, range, read, rfl⟩

theorem cleanFloat_answers (v : Value) :
    Answers (cleanFloat v) fun x => ∃ y, x = .double (some y) := by
  unfold cleanFloat
  split
  · exact answers_error (by simp)
  · exact answers_converted (by simp) fun y => ⟨y, rfl⟩

theorem cleanDecimal_answers (precision scale : Nat) (v : Value) :
    Answers (cleanDecimal precision scale v) fun x => ∃ d : Decimal,
      x = .decimal (some d.normalize) precision scale ∧ d.normalize.scale ≤ scale ∧
      (Nat.toDigits 10 d.normalize.units).length - d.normalize.scale ≤ precision - scale := by
  unfold cleanDecimal
  dsimp only
  split
  · exact answers_error (by simp)
  · have read : Answers (orReason (fun _ => .numberRequired) (Native.ofValue .decimal v))
        fun _ => True := answers_orReason (by simp) fun _ _ => trivial
    refine answers_bind read fun d _ => ?_
    refine answers_unless (by simp) fun places => answers_unless (by simp) fun digits => ?_
    exact answers_ok ⟨d, rfl, Nat.not_lt.mp places, Nat.not_lt.mp digits⟩

theorem cleanBoolean_answers (v : Value) :
    Answers (cleanBoolean v) fun x => ∃ b, x = .boolean (some b) := by
  unfold cleanBoolean
  split
  · exact answers_ok ⟨_, rfl⟩
  · exact answers_error (by simp)

theorem stringify_answers (v : Value) : Answers (stringify v) fun s => stringify v = .ok s := by
  refine ⟨fun _ same => same, ?_⟩
  unfold stringify
  split <;> simp

theorem cleanText_answers {limit : Option Nat} {test : String → Bool} {reason : Reason}
    (own : reason ≠ .notABindType) (v : Value) :
    Answers (cleanText limit test reason v) fun x => ∃ s, x = .varchar (some s) ∧
      stringify v = .ok s ∧ (∀ n, limit = some n → s.length ≤ n) ∧ test s = true := by
  unfold cleanText
  refine answers_bind (stringify_answers v) fun s read => ?_
  have tested (short : ∀ n, limit = some n → s.length ≤ n) :
      Answers (if test s then pure (Value.varchar (some s)) else throw reason) fun x =>
        ∃ s, x = .varchar (some s) ∧ stringify v = .ok s ∧ (∀ n, limit = some n → s.length ≤ n) ∧
          test s = true := by
    split
    · next passed => exact answers_ok ⟨s, rfl, read, short, passed⟩
    · exact answers_error own
  dsimp only
  cases limit with
  | none => exact tested nofun
  | some limit =>
    exact answers_unless (by simp) fun fits => tested fun n same => by
      cases same
      exact Nat.not_lt.mp fits

theorem cleanAddress_answers (v : Value) :
    Answers (cleanAddress v) fun x => ∃ s a, IpAddress.ofText? s = some a ∧
      x = .varchar (some a.toText) := by
  unfold cleanAddress
  split
  · split
    · next a read => exact answers_ok ⟨_, a, read, rfl⟩
    · exact answers_error (by simp)
  · split
    · next a read => exact answers_ok ⟨_, a, read, rfl⟩
    · exact answers_error (by simp)
  · exact answers_error (by simp)

theorem cleanBinary_answers (v : Value) :
    Answers (cleanBinary v) fun x => ∃ b, x = .blob (some b) := by
  unfold cleanBinary
  split
  · exact answers_ok ⟨_, rfl⟩
  · exact answers_error (by simp)

theorem cleanDate_answers (v : Value) :
    Answers (cleanDate v) fun x => ∃ d, x = .date (some d) := by
  unfold cleanDate
  split
  · exact answers_ok ⟨_, rfl⟩
  · exact answers_converted (by simp) fun m => ⟨m.date, rfl⟩
  · exact answers_converted (by simp) fun m => ⟨m.date, rfl⟩
  · exact answers_converted (by simp) fun d => ⟨d, rfl⟩
  · exact answers_error (by simp)

theorem cleanMoment_answers (v : Value) :
    Answers (cleanMoment v) fun x => ∃ m, x = .timestamp (some m) := by
  unfold cleanMoment
  split
  · exact answers_converted (by simp) fun m => ⟨m, rfl⟩
  · exact answers_converted (by simp) fun m => ⟨m, rfl⟩
  · exact answers_converted (by simp) fun m => ⟨m, rfl⟩
  · dsimp only
    split
    · exact answers_ok ⟨_, rfl⟩
    · exact answers_converted (by simp) fun d => ⟨Moment.startOf d, rfl⟩
  · exact answers_error (by simp)

theorem cleanTime_answers (v : Value) :
    Answers (cleanTime v) fun x => ∃ t, x = .time (some t) := by
  unfold cleanTime
  split
  · exact answers_ok ⟨_, rfl⟩
  · exact answers_ok ⟨_, rfl⟩
  · exact answers_converted (by simp) fun t => ⟨t, rfl⟩
  · exact answers_error (by simp)

theorem cleanUuid_answers (v : Value) :
    Answers (cleanUuid v) fun x => ∃ u, x = .uuid (some u) := by
  unfold cleanUuid
  split
  · exact answers_converted (by simp) fun u => ⟨u, rfl⟩
  · exact answers_converted (by simp) fun u => ⟨u, rfl⟩
  · exact answers_converted (by simp) fun u => ⟨u, rfl⟩
  · exact answers_error (by simp)

end PreparedSql.FieldType
