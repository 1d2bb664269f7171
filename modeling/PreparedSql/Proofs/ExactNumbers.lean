import Mathlib.Tactic.Ring
import PreparedSql.Number.Binary
import PreparedSql.Number.Decimal

/-! Numbers that are as they should be stay as they are. A binary number is the nearest to its own
magnitude, so that converting it to its own format moves nothing; a decimal number that has lost its
needless places has none to lose. -/
namespace PreparedSql

/-! ### Binary numbers -/

namespace BinaryFormat

variable {f : BinaryFormat}

theorem block_eq (f : BinaryFormat) : f.block = 2 ^ (f.precision - 1) := rfl

theorem block_pos (f : BinaryFormat) : 0 < f.block := by
  rw [block_eq]
  exact Nat.two_pow_pos _

theorem two_mul_block (precise : 0 < f.precision) : 2 * f.block = 2 ^ f.precision := by
  rw [block_eq, ← Nat.pow_succ']
  congr 1
  omega

end BinaryFormat

/-- A quotient without remainder is not rounded. -/
theorem roundHalfEven_exact (m : Nat) {d : Nat} (positive : 0 < d) :
    roundHalfEven (m * d) d = m := by
  rw [roundHalfEven, Nat.mul_mod_left, Nat.mul_div_cancel m positive]
  simp [positive]

namespace Binary

variable {f : BinaryFormat}

/-- Significand and exponent of a magnitude: all bits of the significand are used, unless the
exponent is the least one. -/
theorem significand_spec (f : BinaryFormat) (rank : Nat) :
    (significand f rank).1 + (significand f rank).2 * f.block = rank ∧
      (f.block ≤ (significand f rank).1 ∧ (significand f rank).1 < 2 * f.block ∨
        (significand f rank).2 = 0 ∧ (significand f rank).1 < f.block) := by
  unfold significand
  split
  · next least => exact ⟨by simp, .inr ⟨rfl, least⟩⟩
  · next further =>
    have positive := f.block_pos
    have rest := Nat.mod_lt rank positive
    have counted := Nat.mod_add_div' rank f.block
    obtain ⟨k, blocks⟩ : ∃ k, rank / f.block = k + 1 :=
      Nat.exists_eq_add_one.mpr (Nat.div_pos (Nat.not_lt.mp further) positive)
    rw [blocks, Nat.add_mul] at counted
    rw [blocks]
    constructor
    · dsimp only
      rw [Nat.add_sub_cancel]
      omega
    · left
      dsimp only
      omega

/-- The magnitude, counted in units of the least one. -/
theorem magnitude_scaled (f : BinaryFormat) (rank : Nat) :
    0 < (magnitude f rank).denominator ∧
      (magnitude f rank).numerator * 2 ^ f.leastExponent =
        (significand f rank).1 * 2 ^ (significand f rank).2 * (magnitude f rank).denominator := by
  unfold magnitude
  generalize significand f rank = parts
  obtain ⟨m, e⟩ := parts
  dsimp only
  split
  · next large =>
    refine ⟨Nat.one_pos, ?_⟩
    have shifted : Nat.pow 2 (e - f.leastExponent) * 2 ^ f.leastExponent = 2 ^ e := by
      show 2 ^ _ * 2 ^ _ = 2 ^ e
      rw [← Nat.pow_add, Nat.sub_add_cancel large]
    rw [Nat.mul_assoc, shifted, Nat.mul_one]
  · next small =>
    refine ⟨Nat.two_pow_pos _, ?_⟩
    have shifted : 2 ^ e * Nat.pow 2 (f.leastExponent - e) = 2 ^ f.leastExponent := by
      show 2 ^ e * 2 ^ _ = _
      rw [← Nat.pow_add, Nat.add_sub_cancel' (Nat.le_of_not_le small)]
    rw [Nat.mul_assoc, shifted]

/-- The exponent is found again from the number of bits. -/
theorem exponent_of_bits (precise : 0 < f.precision) {m e : Nat}
    (parts : f.block ≤ m ∧ m < 2 * f.block ∨ e = 0 ∧ m < f.block) :
    (m * 2 ^ e).log2 + 1 - f.precision = e := by
  rcases parts with ⟨least, most⟩ | ⟨rfl, least⟩
  · have filled : m * 2 ^ e ≠ 0 :=
      Nat.ne_of_gt (Nat.mul_pos (Nat.lt_of_lt_of_le f.block_pos least) (Nat.two_pow_pos e))
    have bits : (m * 2 ^ e).log2 = f.precision - 1 + e := by
      rw [Nat.log2_eq_iff filled]
      constructor
      · rw [Nat.pow_add]
        exact Nat.mul_le_mul_right _ least
      · rw [BinaryFormat.two_mul_block precise] at most
        have whole : f.precision - 1 + e + 1 = f.precision + e := by omega
        rw [whole, Nat.pow_add]
        exact Nat.mul_lt_mul_of_pos_right most (Nat.two_pow_pos e)
    omega
  · rw [Nat.pow_zero, Nat.mul_one]
    by_cases zero : m = 0
    · subst m
      rw [Nat.log2_zero]
      omega
    · have within : m < 2 ^ f.precision := by
        rw [← BinaryFormat.two_mul_block precise]
        omega
      have bits := (Nat.log2_lt zero).mpr within
      omega

/-- A magnitude of the format is nearest to itself. -/
theorem nearestRank_magnitude (precise : 0 < f.precision) (rank : Nat) :
    nearestRank f (magnitude f rank).numerator (magnitude f rank).denominator = rank := by
  obtain ⟨counted, parts⟩ := significand_spec f rank
  obtain ⟨positive, scaled⟩ := magnitude_scaled f rank
  have exponent := exponent_of_bits precise parts
  have quotient : (magnitude f rank).numerator * 2 ^ f.leastExponent / (magnitude f rank).denominator =
      (significand f rank).1 * 2 ^ (significand f rank).2 := by
    rw [scaled, Nat.mul_div_cancel _ positive]
  have divisor : (significand f rank).1 * 2 ^ (significand f rank).2 * (magnitude f rank).denominator =
      (significand f rank).1 * ((magnitude f rank).denominator * 2 ^ (significand f rank).2) := by
    ring
  have units := roundHalfEven_exact (significand f rank).1
    (Nat.mul_pos positive (Nat.two_pow_pos (significand f rank).2))
  unfold nearestRank
  simp only [Nat.pow_eq, quotient, exponent]
  rw [scaled, divisor, units, counted]

/-- Converting a number to its own format changes nothing. -/
theorem convert_self (precise : 0 < f.precision) (x : Binary f) : x.convert = x := by
  cases x with
  | nan => rfl
  | number negative rank bounded =>
    have kept : ofRank negative rank = (number negative rank bounded : Binary f) := by
      simp [ofRank, Nat.min_eq_left bounded]
    rw [convert]
    split
    · next infinite =>
      rw [← infinite]
      exact kept
    · rw [nearest, nearestRank_magnitude precise]
      exact kept

end Binary

/-! ### Decimal numbers -/

namespace Decimal

/-- Every place that is left is needed. -/
def Needed (units scale : Nat) : Prop :=
  scale = 0 ∨ units % 10 ≠ 0

theorem normalizeStep_of_needed {units scale : Nat} (needed : Needed units scale) (fuel : Nat) :
    normalizeStep fuel units scale = (units, scale) := by
  cases fuel with
  | zero => rfl
  | succ fuel =>
    rw [normalizeStep, if_neg]
    rintro ⟨places, zero⟩
    exact needed.elim places fun last => last zero

/-- The places that are taken off are zeros, and no needless one is left. -/
theorem normalizeStep_spec {fuel scale : Nat} (enough : scale ≤ fuel) (units : Nat) :
    ∃ places, units = (normalizeStep fuel units scale).1 * 10 ^ places ∧
      scale = (normalizeStep fuel units scale).2 + places ∧
      Needed (normalizeStep fuel units scale).1 (normalizeStep fuel units scale).2 := by
  induction fuel generalizing units scale with
  | zero =>
    have unscaled : scale = 0 := Nat.le_zero.mp enough
    exact ⟨0, by simp [normalizeStep], by simp [normalizeStep], .inl unscaled⟩
  | succ fuel ih =>
    rw [normalizeStep]
    split
    · next more =>
      have enough' : scale - 1 ≤ fuel := by omega
      obtain ⟨places, kept, fewer, needed⟩ := ih enough' (units / 10)
      refine ⟨places + 1, ?_, by omega, needed⟩
      rw [Nat.pow_succ, ← Nat.mul_assoc, ← kept]
      omega
    · next done =>
      refine ⟨0, by simp, by simp, ?_⟩
      by_cases places : scale = 0
      · exact .inl places
      · exact .inr fun zero => done ⟨places, zero⟩

/-- What normalizing leaves: the same number with the least scale, and no sign on zero. -/
theorem normalize_spec (d : Decimal) :
    ∃ places, d.units = d.normalize.units * 10 ^ places ∧ d.scale = d.normalize.scale + places ∧
      Needed d.normalize.units d.normalize.scale ∧
      d.normalize.negative = (d.negative && d.units != 0) := by
  obtain ⟨places, kept, fewer, needed⟩ := normalizeStep_spec (Nat.le_refl d.scale) d.units
  unfold normalize
  generalize normalizeStep d.scale d.units d.scale = left at kept fewer needed
  obtain ⟨units, scale⟩ := left
  dsimp only at kept fewer needed
  have less : units ≤ d.units := by
    rw [kept]
    exact Nat.le_mul_of_pos_right units (Nat.pow_pos (by decide))
  have fits : units < decimalBound ∧ scale ≤ maxScale :=
    ⟨Nat.lt_of_le_of_lt less d.fits.1, Nat.le_trans (by omega) d.fits.2⟩
  have made : of? (d.negative && d.units != 0) units scale =
      some ⟨d.negative && d.units != 0, units, scale, fits⟩ := dif_pos fits
  dsimp only
  rw [made]
  exact ⟨places, kept, fewer, needed, rfl⟩

/-- Normalizing again changes nothing. -/
theorem normalize_normalize (d : Decimal) : d.normalize.normalize = d.normalize := by
  obtain ⟨places, kept, -, needed, sign⟩ := d.normalize_spec
  have still : (d.normalize.negative && d.normalize.units != 0) = d.normalize.negative := by
    by_cases zero : d.normalize.units = 0
    · have vanished : d.units = 0 := by
        rw [kept, zero, Nat.zero_mul]
      rw [sign, vanished]
      simp
    · simp [zero]
  have made : of? d.normalize.negative d.normalize.units d.normalize.scale = some d.normalize :=
    dif_pos d.normalize.fits
  generalize d.normalize = n at needed still made
  rw [normalize, normalizeStep_of_needed needed]
  dsimp only
  rw [still, made]
  rfl

end Decimal

end PreparedSql
