import PreparedSql.Proofs.AddressTexts
import PreparedSql.Proofs.CleaningOutcomes

/-! Cleaning is sound. What it answers is of the kind that carries the field type, NULL only where
NULL was given and may stand, and within the limits of the type that parameters are bound as; and it
always cleans for such a type, however deep the references go that lead to it. -/
namespace PreparedSql

/-- A number within the limits of the kind is not moved. -/
theorem Ranged.value_clamp {k : IntKind} {n : Int} (inside : k.least ≤ n ∧ n ≤ k.greatest) :
    (clamp k n).value = n := by
  show max k.least (min n k.greatest) = n
  omega

/-- A number of the kind is not moved. -/
theorem Ranged.clamp_value {k : IntKind} (n : Ranged k) : clamp k n.value = n := by
  obtain ⟨value, inRange⟩ := n
  exact (Ranged.mk.injEq ..).mpr (value_clamp inRange)

namespace FieldType

variable {b : FieldType} {v : Value}

/-- The least and the greatest number of a type for whole numbers. -/
def integerLimits? : FieldType → Option (Int × Int)
  | smallInteger => some (-32768, 32767)
  | integer => some (-2147483648, 2147483647)
  | bigInteger => some (-9223372036854775808, 9223372036854775807)
  | positiveSmallInteger => some (0, 32767)
  | positiveInteger => some (0, 2147483647)
  | _ => none

/-- The test that the texts of the type pass. -/
def accepts : FieldType → String → Bool
  | email _, s => Net.isEmail s
  | url _, s => isWebUrl s
  | slug _, s => Net.isSlug s
  | _, _ => true

/-- What a type demands of a value of its kind: whole numbers within its limits, texts of a bounded
length that pass its test, decimals with a bounded number of digits on both sides of the point. -/
def Meets (b : FieldType) : Value → Prop
  | .int _ (some n) => ∃ least greatest, b.integerLimits? = some (least, greatest) ∧
      least ≤ n.value ∧ n.value ≤ greatest
  | .varchar (some s) => (∀ limit, b.maxLength? = some limit → s.length ≤ limit) ∧
      b.accepts s = true
  | .decimal (some d) precision scale => d.scale ≤ scale ∧
      d.units / 10 ^ d.scale < 10 ^ (precision - scale)
  | _ => True

/-- What cleaning a value for a field type may answer. -/
structure Sound (t : FieldType) (v : Value) (nullable : Bool) (w : Value) : Prop where
  kind : w.sameType t.valuePrototype = true
  null : w.isNull = v.isNull
  allowed : w.isNull = true → nullable = true ∨ t = .nullBoolean
  meets : t.bindType.Meets w
  /-- Whole numbers are the number that was given, whatever their width. -/
  number : ∀ k n, w = .int k (some n) →
    ∃ m : Ranged .int64, Native.ofValue (.int .int64) v = .ok m ∧ n.value = m.value

/-! ### Values that are not NULL -/

/-- What cleaning a value that is not NULL answers for a type that parameters are bound as. -/
structure Fits (b : FieldType) (v w : Value) : Prop where
  kind : w.sameType b.valuePrototype = true
  present : w.isNull = false
  meets : b.Meets w
  number : ∀ k n, w = .int k (some n) →
    ∃ m : Ranged .int64, Native.ofValue (.int .int64) v = .ok m ∧ n.value = m.value

/-- Narrowing keeps the number, for the limits of the type lie within those of the kind. -/
theorem fits_integer {k : IntKind} (kind : b.valuePrototype = .int k none)
    (limits : b.integerLimits? = some b.integerRange)
    (narrow : k.least ≤ b.integerRange.1 ∧ b.integerRange.2 ≤ k.greatest) (v : Value) :
    Answers (b.cleanIntegerAs k v) (b.Fits v) := by
  refine answers_mono ?_ (cleanIntegerAs_answers b k v)
  rintro x ⟨n, ⟨above, below⟩, ⟨m, read, same⟩, rfl⟩
  have kept : (Ranged.clamp k n).value = n :=
    Ranged.value_clamp ⟨Int.le_trans narrow.1 above, Int.le_trans below narrow.2⟩
  refine ⟨?_, rfl, ⟨_, _, limits, ?_⟩, ?_⟩
  · rw [kind]
    exact beq_self_eq_true k
  · rw [kept]
    exact ⟨above, below⟩
  · rintro _ _ ⟨⟩
    exact ⟨m, read, kept.trans same⟩

/-- As many digits as are left of the point bound the whole part. -/
theorem fits_decimal (precision scale : Nat) (v : Value) :
    Answers (cleanDecimal precision scale v) ((decimal precision scale).Fits v) := by
  refine answers_mono ?_ (cleanDecimal_answers precision scale v)
  rintro x ⟨d, rfl, places, digits⟩
  generalize d.normalize = d at places digits
  have whole : d.units / 10 ^ d.scale < 10 ^ (precision - scale) := by
    have counted : d.units < 10 ^ (Nat.toDigits 10 d.units).length :=
      (Nat.length_toDigits_le_iff (by decide) Nat.length_toDigits_pos).mp (Nat.le_refl _)
    refine Nat.div_lt_of_lt_mul (Nat.lt_of_lt_of_le counted ?_)
    rw [← Nat.pow_add]
    exact Nat.pow_le_pow_right (by decide) (by omega)
  exact ⟨by simp [valuePrototype, Value.sameType], rfl, ⟨places, whole⟩, by simp⟩

theorem fits_text {limit : Option Nat} {test : String → Bool} {reason : Reason}
    (kind : b.valuePrototype = .varchar none) (limits : b.maxLength? = limit)
    (tests : b.accepts = test) (own : reason ≠ .notABindType) (v : Value) :
    Answers (cleanText limit test reason v) (b.Fits v) := by
  refine answers_mono ?_ (cleanText_answers own v)
  rintro x ⟨s, rfl, _, short, passed⟩
  refine ⟨?_, rfl, ⟨?_, ?_⟩, by simp⟩
  · rw [kind]
    rfl
  · rw [limits]
    exact short
  · rw [tests]
    exact passed

theorem fits_address (v : Value) : Answers (cleanAddress v) (ipAddress.Fits v) := by
  refine answers_mono ?_ (cleanAddress_answers v)
  rintro x ⟨s, a, read, rfl⟩
  have short := IpAddress.length_toText_le (IpAddress.ofText?_proper read)
  refine ⟨rfl, rfl, ⟨?_, rfl⟩, by simp⟩
  rintro _ ⟨⟩
  exact short

/-- Every type that parameters are bound as has a way of cleaning, and its answers fit. -/
theorem fits_cleanPresent (t : FieldType) (v : Value) :
    Answers (t.bindType.cleanPresent v) (t.bindType.Fits v) := by
  induction t with
  | foreignKey target ih => exact ih
  | smallInteger => exact fits_integer rfl (by decide) (by decide) v
  | positiveSmallInteger => exact fits_integer rfl (by decide) (by decide) v
  | integer => exact fits_integer rfl (by decide) (by decide) v
  | autoField => exact fits_integer rfl (by decide) (by decide) v
  | positiveInteger => exact fits_integer rfl (by decide) (by decide) v
  | bigInteger => exact fits_integer rfl (by decide) (by decide) v
  | bigAutoField => exact fits_integer rfl (by decide) (by decide) v
  | float => exact answers_shape (cleanFloat_answers v) fun x => ⟨rfl, rfl, trivial, by simp⟩
  | decimal precision scale => exact fits_decimal precision scale v
  | boolean => exact answers_shape (cleanBoolean_answers v) fun x => ⟨rfl, rfl, trivial, by simp⟩
  | nullBoolean => exact answers_shape (cleanBoolean_answers v) fun x => ⟨rfl, rfl, trivial, by simp⟩
  | char n => exact fits_text (b := char n) rfl rfl rfl (by simp) v
  | text => exact fits_text (b := text) rfl rfl rfl (by simp) v
  | email n => exact fits_text (b := email n) rfl rfl rfl (by simp) v
  | url n => exact fits_text (b := url n) rfl rfl rfl (by simp) v
  | slug n => exact fits_text (b := slug n) rfl rfl rfl (by simp) v
  | ipAddress => exact fits_address v
  | binary => exact answers_shape (cleanBinary_answers v) fun x => ⟨rfl, rfl, trivial, by simp⟩
  | date => exact answers_shape (cleanDate_answers v) fun x => ⟨rfl, rfl, trivial, by simp⟩
  | dateTime => exact answers_shape (cleanMoment_answers v) fun x => ⟨rfl, rfl, trivial, by simp⟩
  | time => exact answers_shape (cleanTime_answers v) fun x => ⟨rfl, rfl, trivial, by simp⟩
  | uuid => exact answers_shape (cleanUuid_answers v) fun x => ⟨rfl, rfl, trivial, by simp⟩

/-! ### NULL -/

theorem sameType_valuePrototype (t : FieldType) :
    t.valuePrototype.sameType t.valuePrototype = true := by
  induction t with
  | foreignKey target ih => exact ih
  | decimal precision scale => simp [valuePrototype, Value.sameType]
  | _ => rfl

/-- No type demands anything of a NULL. -/
theorem meets_null {w : Value} (null : w.isNull = true) : b.Meets w := by
  unfold Meets
  split
  · cases null
  · cases null
  · cases null
  · trivial

theorem sound_null {t : FieldType} {nullable : Bool} (null : v.isNull = true)
    (allowed : nullable = true ∨ t = .nullBoolean) : t.Sound v nullable t.valuePrototype where
  kind := sameType_valuePrototype t
  null := (isNull_valuePrototype t).trans null.symm
  allowed := fun _ => allowed
  meets := meets_null (isNull_valuePrototype t)
  number := by
    intro k n same
    have none := isNull_valuePrototype t
    rw [same] at none
    cases none

theorem sound_fits {t : FieldType} {nullable : Bool} {w : Value} (present : v.isNull = false)
    (fits : t.bindType.Fits v w) : t.Sound v nullable w where
  kind := by
    rw [← valuePrototype_bindType]
    exact fits.kind
  null := fits.present.trans present.symm
  allowed := by
    intro null
    rw [fits.present] at null
    cases null
  meets := fits.meets
  number := fits.number

/-- Cleaning is sound for every field type, value and nullability: whatever it answers is of the
kind that carries the type, NULL only where NULL was given and may stand, and meets what the type
that parameters are bound as demands. It never refuses for want of such a type. -/
theorem clean_sound (t : FieldType) (v : Value) (nullable : Bool) :
    (∀ w, t.clean v nullable = .ok w → t.Sound v nullable w) ∧
      t.clean v nullable ≠ .error .notABindType := by
  have fits := fits_cleanPresent t v
  unfold clean
  split
  · next null =>
    split
    · next allowed =>
      refine ⟨?_, by simp⟩
      rintro _ ⟨⟩
      exact sound_null null (by simpa using allowed)
    · simp
  · next present =>
    refine ⟨fun w cleaned => ?_, fits.refused⟩
    exact sound_fits (Bool.eq_false_iff.mpr present) (fits.answered w cleaned)

/-- The price of what a reference refers to, which is a reference itself. -/
theorem referredPrice_sound :
    (foreignKey (foreignKey (decimal 6 2))).Sound (.varchar (some " 12.50 ")) false
      (.decimal (some ⟨false, 125, 1, by decide⟩) 6 2) :=
  (clean_sound _ _ _).1 _ (by rfl)

end FieldType

end PreparedSql
