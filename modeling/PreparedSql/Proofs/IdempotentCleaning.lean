import PreparedSql.Proofs.AddressRoundTrip
import PreparedSql.Proofs.ExactNumbers
import PreparedSql.Proofs.SoundCleaning

/-! Cleaning is idempotent. Whatever kind of value was given, what cleaning answers is of the kind
that carries the type, in the form that the type gives it: no needless places, an address in its
canonical text, a NULL of the type. A second cleaning takes that form for what it is. -/
namespace PreparedSql

namespace IpAddress

theorem mem_intercalate {separator : String} {pieces : List String} {c : Char}
    (member : c ∈ (String.intercalate separator pieces).toList) :
    c ∈ separator.toList ∨ ∃ s ∈ pieces, c ∈ s.toList := by
  induction pieces with
  | nil => simp at member
  | cons s pieces ih =>
    cases pieces with
    | nil => exact .inr ⟨s, List.mem_cons_self, by simpa using member⟩
    | cons t pieces =>
      rw [String.intercalate_cons_cons] at member
      simp only [String.toList_append, List.mem_append] at member
      rcases member with (first | between) | later
      · exact .inr ⟨s, List.mem_cons_self, first⟩
      · exact .inl between
      · rcases ih later with between | ⟨t', known, inside⟩
        · exact .inl between
        · exact .inr ⟨t', List.mem_cons_of_mem s known, inside⟩

/-- No blank stands in what is written between separators without one. -/
theorem solid_intercalate {separator : String} {pieces : List String}
    (between : ∀ c ∈ separator.toList, Text.isBlank c = false)
    (inside : ∀ s ∈ pieces, Text.Bare s.toList) :
    ∀ c ∈ (String.intercalate separator pieces).toList, Text.isBlank c = false := by
  intro c member
  rcases mem_intercalate member with separating | ⟨s, known, written⟩
  · exact between c separating
  · exact Text.not_isBlank_of_isBare (inside s known c written)

theorem solid_v4Text (bytes : List Nat) : ∀ c ∈ (v4Text bytes).toList, Text.isBlank c = false := by
  apply solid_intercalate
  · simp [Text.isBlank]
  · intro s member
    obtain ⟨n, -, rfl⟩ := List.mem_map.mp member
    exact Text.bare_nat n

theorem solid_groupsText (groups : List Nat) :
    ∀ c ∈ (groupsText groups).toList, Text.isBlank c = false := by
  apply solid_intercalate
  · simp [Text.isBlank]
  · intro s member
    obtain ⟨n, -, rfl⟩ := List.mem_map.mp member
    rw [Text.hexNat, String.toList_ofList]
    exact Text.bare_toDigits (by decide) (by decide) n

/-- No blank stands in the text of an address. -/
theorem solid_toText (a : IpAddress) : ∀ c ∈ a.toText.toList, Text.isBlank c = false := by
  cases a with
  | v4 bytes => exact solid_v4Text bytes
  | v6 groups =>
    show ∀ c ∈ (v6Text groups).toList, Text.isBlank c = false
    unfold v6Text
    split
    · next a b =>
      rw [String.toList_append, List.forall_mem_append]
      exact ⟨by simp [Text.isBlank], solid_v4Text _⟩
    · unfold shortGroupsText
      dsimp only
      split
      · simp only [String.toList_append, List.forall_mem_append]
        exact ⟨⟨solid_groupsText _, by simp [Text.isBlank]⟩, solid_groupsText _⟩
      · exact solid_groupsText groups

theorem trim_toText (a : IpAddress) : Text.trim a.toText = a.toText :=
  Text.trim_of_solid (fun c first => a.solid_toText c (List.mem_of_head? first))
    fun c last => a.solid_toText c (List.mem_of_getLast? last)

end IpAddress

namespace FieldType

variable {b : FieldType} {v : Value}

/-- What a cleaner answers, it answers for its own answer. -/
abbrev Settles (cleaner : Value → Cleaned Value) (v : Value) : Prop :=
  Answers (cleaner v) fun w => cleaner w = .ok w

/-- A number within the limits is read as itself. -/
theorem settles_integer {k : IntKind}
    (narrow : k.least ≤ b.integerRange.1 ∧ b.integerRange.2 ≤ k.greatest) (v : Value) :
    Settles (b.cleanIntegerAs k) v := by
  refine answers_mono ?_ (cleanIntegerAs_answers b k v)
  rintro x ⟨n, ⟨above, below⟩, ⟨m, -, same⟩, rfl⟩
  have kept : (Ranged.clamp k n).value = n :=
    Ranged.value_clamp ⟨Int.le_trans narrow.1 above, Int.le_trans below narrow.2⟩
  have cleaned : cleanInteger (.int k (some (.clamp k n))) b.integerRange.1 b.integerRange.2 =
      .ok (Ranged.clamp k n).value :=
    cleanInteger_within (same.symm.trans kept.symm) (by omega) (by omega)
  rw [kept] at cleaned
  rw [cleanIntegerAs, cleaned]
  rfl

theorem settles_float (v : Value) : Settles cleanFloat v := by
  refine answers_shape (cleanFloat_answers v) fun x => ?_
  have read : Native.ofValue .double (.double (some x)) = .ok x :=
    congrArg Except.ok (Binary.convert_self (by decide) x)
  unfold cleanFloat
  dsimp only
  rw [read]
  rfl

/-- A number without needless places has none to lose, and meets the limits again. -/
theorem settles_decimal (precision scale : Nat) (v : Value) :
    Settles (cleanDecimal precision scale) v := by
  refine answers_mono ?_ (cleanDecimal_answers precision scale v)
  rintro x ⟨d, rfl, places, digits⟩
  have read : Native.ofValue .decimal (.decimal (some d.normalize) precision scale) =
      .ok d.normalize := rfl
  unfold cleanDecimal
  dsimp only
  rw [read]
  show (if scale < d.normalize.normalize.scale then _ else _) = _
  rw [d.normalize_normalize, if_neg (Nat.not_lt.mpr places)]
  show (if precision - scale < (Nat.toDigits 10 d.normalize.units).length - d.normalize.scale then _
    else _) = _
  rw [if_neg (Nat.not_lt.mpr digits)]
  rfl

theorem settles_text (limit : Option Nat) (test : String → Bool) {reason : Reason}
    (own : reason ≠ .notABindType) (v : Value) : Settles (cleanText limit test reason) v := by
  refine answers_mono ?_ (cleanText_answers own v)
  rintro x ⟨s, rfl, -, short, passed⟩
  have tested : (if test s = true then pure (Value.varchar (some s)) else throw reason :
      Cleaned Value) = .ok (.varchar (some s)) := if_pos passed
  cases limit with
  | none => exact tested
  | some limit =>
    have fits : ¬ limit < s.length := Nat.not_lt.mpr (short limit rfl)
    show (if limit < s.length then _ else _) = _
    rw [if_neg fits]
    exact tested

/-- The canonical text of an address is read as the address. -/
theorem settles_address (v : Value) : Settles cleanAddress v := by
  refine answers_mono ?_ (cleanAddress_answers v)
  rintro x ⟨s, a, read, rfl⟩
  have again := IpAddress.ofText?_toText (IpAddress.ofText?_proper read)
  unfold cleanAddress
  dsimp only
  rw [IpAddress.trim_toText, again]

/-- Every way of cleaning settles with its first answer. -/
theorem settles_cleanPresent (t : FieldType) (v : Value) : Settles t.bindType.cleanPresent v := by
  induction t with
  | foreignKey target ih => exact ih
  | smallInteger => exact settles_integer (b := smallInteger) (by decide) v
  | positiveSmallInteger => exact settles_integer (b := positiveSmallInteger) (by decide) v
  | integer => exact settles_integer (b := integer) (by decide) v
  | autoField => exact settles_integer (b := integer) (by decide) v
  | positiveInteger => exact settles_integer (b := positiveInteger) (by decide) v
  | bigInteger => exact settles_integer (b := bigInteger) (by decide) v
  | bigAutoField => exact settles_integer (b := bigInteger) (by decide) v
  | float => exact settles_float v
  | decimal precision scale => exact settles_decimal precision scale v
  | boolean => exact answers_shape (cleanBoolean_answers v) fun x => rfl
  | nullBoolean => exact answers_shape (cleanBoolean_answers v) fun x => rfl
  | char n => exact settles_text (some n) (fun _ => true) (by simp) v
  | text => exact settles_text none (fun _ => true) (by simp) v
  | email n => exact settles_text (some n) Net.isEmail (by simp) v
  | url n => exact settles_text (some n) isWebUrl (by simp) v
  | slug n => exact settles_text (some n) Net.isSlug (by simp) v
  | ipAddress => exact settles_address v
  | binary => exact answers_shape (cleanBinary_answers v) fun x => rfl
  | date => exact answers_shape (cleanDate_answers v) fun x => rfl
  | dateTime => exact answers_shape (cleanMoment_answers v) fun x => rfl
  | time => exact answers_shape (cleanTime_answers v) fun x => rfl
  | uuid => exact answers_shape (cleanUuid_answers v) fun x => rfl

/-- Cleaning is idempotent: what it answers, for any field type, value and nullability, it answers
again for that answer. -/
theorem clean_clean {t : FieldType} {v w : Value} {nullable : Bool}
    (cleaned : t.clean v nullable = .ok w) : t.clean w nullable = .ok w := by
  unfold clean at cleaned ⊢
  by_cases null : v.isNull = true
  · rw [if_pos null] at cleaned
    by_cases allowed : (nullable || t == nullBoolean) = true
    · rw [if_pos allowed] at cleaned
      obtain rfl := Except.ok.inj cleaned
      rw [if_pos (isNull_valuePrototype t), if_pos allowed]
    · rw [if_neg allowed] at cleaned
      cases cleaned
  · rw [if_neg null] at cleaned
    have present := ((fits_cleanPresent t v).answered w cleaned).present
    rw [if_neg (by simp [present])]
    exact (settles_cleanPresent t v).answered w cleaned

/-- An address with blanks around it and its zeros written out. -/
theorem writtenOut_clean_clean :
    ipAddress.clean (.unknown (some " 2001:0DB8:0:0:01:0:0:1\n")) false =
        .ok (.varchar (some "2001:db8::1:0:0:1")) ∧
      ipAddress.clean (.varchar (some "2001:db8::1:0:0:1")) false =
        .ok (.varchar (some "2001:db8::1:0:0:1")) := by
  have cleaned : ipAddress.clean (.unknown (some " 2001:0DB8:0:0:01:0:0:1\n")) false =
      .ok (.varchar (some "2001:db8::1:0:0:1")) := by rfl
  exact ⟨cleaned, clean_clean cleaned⟩

end FieldType

end PreparedSql
