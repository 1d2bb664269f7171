import Mathlib.Algebra.Order.Field.Rat
import Mathlib.Algebra.Order.Ring.Abs
import Mathlib.Tactic.FieldSimp
import Mathlib.Tactic.Positivity
import PreparedSql.Proofs.ExactNumbers
import PreparedSql.Schema.Cleaning

/-! A decimal column takes the numbers that fit it, whatever their scale. A number fits when it has
no more places than the column and its whole part no more digits than the column leaves before the
point. Cleaning counts both on the normalized units. That count is right for every number but zero,
whose one digit is counted as a digit before the point: a column that leaves none there, though it
takes every other number between -1 and 1 with few enough places, refuses zero. -/
namespace PreparedSql

/-! ### The number that a decimal stands for -/

namespace Decimal

/-- The number itself, without the scale that it is written with. -/
def value (d : Decimal) : ℚ :=
  d.signedUnits / 10 ^ d.scale

theorem natAbs_signedUnits (d : Decimal) : d.signedUnits.natAbs = d.units := by
  unfold signedUnits
  split <;> simp

theorem abs_value (d : Decimal) : |d.value| = d.units / 10 ^ d.scale := by
  have units : |(d.signedUnits : ℚ)| = d.units := by
    rw [← Int.cast_abs, Int.abs_eq_natAbs, natAbs_signedUnits, Int.cast_natCast]
  have positive : (0 : ℚ) < 10 ^ d.scale := by positivity
  rw [value, abs_div, units, abs_of_pos positive]

theorem value_eq_zero_iff (d : Decimal) : d.value = 0 ↔ d.units = 0 := by
  have positive : (10 : ℚ) ^ d.scale ≠ 0 := by positivity
  rw [← abs_eq_zero, abs_value, div_eq_zero_iff, Nat.cast_eq_zero]
  exact or_iff_left positive

/-- A whole number is reached exactly when the units are that many times the places. -/
theorem value_mul_eq_iff (d : Decimal) (k : ℕ) (n : ℤ) :
    d.value * 10 ^ k = n ↔ d.signedUnits * 10 ^ k = n * 10 ^ d.scale := by
  have positive : (10 : ℚ) ^ d.scale ≠ 0 := by positivity
  rw [value, div_mul_eq_mul_div, div_eq_iff positive]
  exact_mod_cast Iff.rfl

/-- Taking off zeros and their places leaves the number. -/
theorem value_normalize (d : Decimal) : d.normalize.value = d.value := by
  obtain ⟨places, units, scale, -, sign⟩ := d.normalize_spec
  have signed : d.signedUnits = d.normalize.signedUnits * 10 ^ places := by
    by_cases zero : d.units = 0
    · have none : d.normalize.units = 0 := by
        have product : d.normalize.units * 10 ^ places = 0 := units.symm.trans zero
        exact (Nat.mul_eq_zero.mp product).resolve_right (by positivity)
      simp [signedUnits, zero, none]
    · have kept : d.normalize.negative = d.negative := by
        simp [sign, zero]
      rw [signedUnits, signedUnits, kept, units]
      split <;> push_cast <;> ring
  rw [value, value, signed, scale, pow_add]
  push_cast
  field_simp

/-! ### Numbers without needless places -/

section

variable {d : Decimal}

/-- No place can be given up when the last one is needed. -/
theorem places_iff (needed : Needed d.units d.scale) (places : ℕ) :
    (∃ n : ℤ, d.value * 10 ^ places = n) ↔ d.scale ≤ places := by
  constructor
  · rintro ⟨n, reached⟩
    rw [value_mul_eq_iff] at reached
    by_contra more
    obtain ⟨k, scale⟩ : ∃ k, d.scale = places + (k + 1) :=
      ⟨d.scale - places - 1, by omega⟩
    have shorter : d.signedUnits = n * 10 ^ k * 10 := by
      have positive : (10 : ℤ) ^ places ≠ 0 := by positivity
      apply mul_right_cancel₀ positive
      rw [reached, scale]
      ring
    have units : d.units % 10 = 0 := by
      have counted := d.natAbs_signedUnits
      omega
    rcases needed with unscaled | last
    · omega
    · exact last units
  · intro enough
    obtain ⟨k, rfl⟩ := Nat.exists_eq_add_of_le enough
    refine ⟨d.signedUnits * 10 ^ k, ?_⟩
    rw [value_mul_eq_iff]
    ring

/-- The digits that are left of the point bound the number; zero is taken to have one. -/
theorem wholeDigits_iff (needed : Needed d.units d.scale) (digits : ℕ) :
    (Nat.toDigits 10 d.units).length - d.scale ≤ digits ↔
      |d.value| < 10 ^ digits ∧ (d.value = 0 → 0 < digits) := by
  have positive : (0 : ℚ) < 10 ^ d.scale := by positivity
  have bounded : |d.value| < 10 ^ digits ↔ d.units < 10 ^ (digits + d.scale) := by
    rw [abs_value, div_lt_iff₀ positive, ← pow_add]
    exact_mod_cast Iff.rfl
  have filled : 0 < (Nat.toDigits 10 d.units).length := Nat.length_toDigits_pos
  rw [bounded, value_eq_zero_iff]
  by_cases none : digits + d.scale = 0
  · rw [none, pow_zero]
    omega
  · have counted : (Nat.toDigits 10 d.units).length ≤ digits + d.scale ↔
        d.units < 10 ^ (digits + d.scale) :=
      Nat.length_toDigits_le_iff (by decide) (Nat.pos_of_ne_zero none)
    have unscaled : d.units = 0 → d.scale = 0 := by
      intro zero
      rw [zero] at needed
      exact needed.resolve_right fun last => last rfl
    rw [← counted]
    omega

end

/-! ### Columns -/

/-- What a column of a precision and a scale has room for: as many places as its scale, and before
the point as many digits as the precision has more. -/
structure FitsColumn (d : Decimal) (precision scale : ℕ) : Prop where
  places : ∃ n : ℤ, d.value * 10 ^ scale = n
  whole : |d.value| < 10 ^ (precision - scale)

end Decimal

namespace FieldType

variable (precision scale p s : ℕ) (d : Decimal) (nullable : Bool)

/-- A decimal number is cleaned by two checks of its normalized form. -/
theorem clean_decimal_eq :
    (decimal precision scale).clean (.decimal (some d) p s) nullable =
      if scale < d.normalize.scale then .error (.tooManyPlaces scale)
      else if precision - scale < (Nat.toDigits 10 d.normalize.units).length - d.normalize.scale then
        .error (.tooManyWholeDigits (precision - scale))
      else .ok (.decimal (some d.normalize) precision scale) := by
  have cleaned : (decimal precision scale).clean (.decimal (some d) p s) nullable =
      cleanDecimal precision scale (.decimal (some d) p s) := rfl
  rw [cleaned]
  unfold cleanDecimal
  have read : Native.ofValue .decimal (.decimal (some d) p s) = .ok d := rfl
  dsimp only
  rw [read]
  show (if _ then _ else _) = _
  by_cases places : scale < d.normalize.scale
  · rw [if_pos places, if_pos places]
    rfl
  · rw [if_neg places, if_neg places]
    show (if _ then _ else _) = _
    split <;> rfl

/-- A decimal column takes exactly the numbers that fit it and, in the precision and the scale of
the column, answers the number that was given; but zero it takes only when it leaves a digit before
the point. -/
theorem decimalColumn_takes :
    ((∃ w, (decimal precision scale).clean (.decimal (some d) p s) nullable = .ok w) ↔
      d.FitsColumn precision scale ∧ (d.value = 0 → scale < precision)) ∧
    ∀ w, (decimal precision scale).clean (.decimal (some d) p s) nullable = .ok w →
      ∃ e : Decimal, w = .decimal (some e) precision scale ∧ e.value = d.value := by
  obtain ⟨-, -, -, needed, -⟩ := d.normalize_spec
  have places := Decimal.places_iff needed scale
  have digits := Decimal.wholeDigits_iff needed (precision - scale)
  rw [d.value_normalize] at places digits
  rw [clean_decimal_eq]
  by_cases more : scale < d.normalize.scale
  · rw [if_pos more]
    refine ⟨⟨nofun, ?_⟩, nofun⟩
    rintro ⟨fits, -⟩
    exact absurd (places.mp fits.places) (Nat.not_le.mpr more)
  · rw [if_neg more]
    by_cases longer : precision - scale <
        (Nat.toDigits 10 d.normalize.units).length - d.normalize.scale
    · rw [if_pos longer]
      refine ⟨⟨nofun, ?_⟩, nofun⟩
      rintro ⟨fits, room⟩
      have short := digits.mpr ⟨fits.whole, fun zero => Nat.sub_pos_of_lt (room zero)⟩
      exact absurd short (Nat.not_le.mpr longer)
    · rw [if_neg longer]
      obtain ⟨whole, room⟩ := digits.mp (Nat.not_lt.mp longer)
      constructor
      · constructor
        · intro _
          exact ⟨⟨places.mpr (Nat.not_lt.mp more), whole⟩, fun zero => Nat.lt_of_sub_pos (room zero)⟩
        · intro _
          exact ⟨_, rfl⟩
      · intro w answered
        cases answered
        exact ⟨d.normalize, rfl, d.value_normalize⟩

/-- Zero fits a column of two places and no digit before the point, and is refused by it. -/
theorem zero_refused :
    Decimal.zero.FitsColumn 2 2 ∧ (decimal 2 2).clean (.decimal (some .zero) 0 0) false =
      .error (.tooManyWholeDigits 0) := by
  have zero : Decimal.zero.value = 0 := (Decimal.value_eq_zero_iff _).mpr rfl
  refine ⟨⟨⟨0, ?_⟩, ?_⟩, rfl⟩
  · rw [zero]
    norm_num
  · rw [zero]
    norm_num

end FieldType

end PreparedSql
