import PreparedSql.Proofs.ServedBody

/-! The numbers in the window of a statement. A bound reaches a server as text, as the argument of
a parameter that stands in the window, or as a part of the number of rows, which is computed from
both bounds. Parameters count with a sign: the number of rows is held at zero, and a bound that is
written is what its parameter is given. -/
namespace PreparedSql

namespace Bound

/-- The number that the bound stands for. -/
def numberOf (number : Param → Int) : Bound → Int
  | row n => n
  | param p => number p

/-- The rows from one bound up to another, no fewer than none and no more than can be counted. -/
def rowsUpTo (number : Param → Int) (low high : Bound) : Int :=
  let last := IntKind.int64.greatest
  min last (max 0 (min (high.numberOf number) last - min (low.numberOf number) last))

/-- The number that a server reads behind `LIMIT`. -/
def limitOf (number : Param → Int) (low : Bound) : Option Bound → Option Int
  | none => none
  | some (row high) => some <| match low with
    | row low => ((high - low : Nat) : Int)
    | param _ => rowsUpTo number low (row high)
  | some (param p) => some (if low.isZero then number p else rowsUpTo number low (param p))

/-- The number that a server reads behind `OFFSET`. -/
def offsetOf (number : Param → Int) (low : Bound) : Option Int :=
  if low.isZero then none else some (low.numberOf number)

end Bound

/-- The clause that asks for a limit and an offset. -/
def Flavor.limits (f : Flavor) : Option Int → Option Int → String
  | none, none => ""
  | some limit, none => "\nLIMIT " ++ toString limit
  | some limit, some offset => "\nLIMIT " ++ toString limit ++ "\nOFFSET " ++ toString offset
  | none, some offset =>
    match f with
    | generic | postgres => "\nOFFSET " ++ toString offset
    | mysql => "\nLIMIT 18446744073709551615 OFFSET " ++ toString offset

namespace Prepared

/-- The value for the scalar is the number. -/
def Signed (cleaned : CleanedArguments) (number : Param → Int) (p : Param) : Prop :=
  p.isArray = false ∧
    ∃ n : Ranged .int64, n.value = number p ∧ valuesOf cleaned p.name = [.int .int64 (some n)]

/-- The parameter of the bound, if it has one, is registered and has its number. -/
def SignedBound (params : Registry) (cleaned : CleanedArguments) (number : Param → Int)
    (b : Bound) : Prop :=
  ∀ p, b = .param p → params.byToken? p.token = some p ∧ Signed cleaned number p

section
variable {params : Registry} {cleaned : CleanedArguments} {number : Param → Int} {low b : Bound}

private theorem literal_signed (f : Flavor) {k : IntKind} (r : Ranged k) :
    f.literal (.int k (some r)) = .ok (toString r.value) := by
  rw [Flavor.literal]

/-- A bound is written as its number. -/
theorem fill_bound (f : Flavor) (signed : SignedBound params cleaned number b) :
    Piece.fill (holeText f params cleaned) b.write = .ok (toString (b.numberOf number)) := by
  cases b with
  | row n => exact congrArg Except.ok String.append_empty
  | param p =>
    obtain ⟨registered, scalar, n, same, values⟩ := signed p rfl
    have first : holeText f params cleaned (.element p.token 0) = .ok (toString (number p)) := by
      simp only [holeText, holeValue, registered, slotValue, values, List.getElem?_cons_zero, ← same]
      exact literal_signed f n
    simp only [Bound.write, Param.write, scalar, Bool.false_eq_true, ↓reduceIte, Piece.fill, first]
    exact congrArg Except.ok String.append_empty

private theorem fill_text_bound (f : Flavor) (s : String)
    (signed : SignedBound params cleaned number b) :
    Piece.fill (holeText f params cleaned) (.text s :: b.write) =
      .ok (s ++ toString (b.numberOf number)) := by
  rw [Piece.fill, fill_bound f signed]
  rfl

/-- Computed with, the number of a bound stops at the last row. -/
theorem boundValue_signed (signed : SignedBound params cleaned number b) :
    boundValue cleaned b = .ok (min (b.numberOf number) IntKind.int64.greatest) := by
  cases b with
  | row n => rfl
  | param p =>
    obtain ⟨_, _, n, same, values⟩ := signed p rfl
    have bounded := n.inRange.2
    simp only [boundValue, values, Native.ofValue_int rfl, same]
    exact congrArg Except.ok (by simp only [Bound.numberOf]; omega)

/-- The number of rows between two bounds is an argument. -/
theorem slotValue_span (lowSigned : SignedBound params cleaned number low)
    (highSigned : SignedBound params cleaned number b) :
    ∃ r : Ranged .int64, slotValue cleaned (.span low b) = .ok (.int .int64 (some r)) ∧
      r.value = low.rowsUpTo number b := by
  have least : IntKind.int64.least ≤ 0 := IntKind.int64.least_nonpos
  have greatest : 0 ≤ IntKind.int64.greatest := IntKind.int64.greatest_nonneg
  rw [slotValue, boundValue_signed highSigned, boundValue_signed lowSigned]
  refine ⟨_, rfl, ?_⟩
  simp only [Ranged.clamp, Bound.rowsUpTo]
  omega

/-- Where a parameter takes part behind the first row, the number of rows is an argument. -/
private theorem fill_span (f : Flavor) (lowSigned : SignedBound params cleaned number low)
    (highSigned : SignedBound params cleaned number b) :
    Piece.fill (holeText f params cleaned)
        (.text "\nLIMIT " :: .hole (.span low b) :: .text "\nOFFSET " :: low.write) =
      .ok (f.limits (some (low.rowsUpTo number b)) (some (low.numberOf number))) := by
  obtain ⟨r, fed, counted⟩ := slotValue_span lowSigned highSigned
  have rows : holeText f params cleaned (.span low b) = .ok (toString r.value) := by
    rw [holeText, holeValue, fed]
    exact literal_signed f r
  have clause (limit offset : Int) : f.limits (some limit) (some offset) =
      "\nLIMIT " ++ (toString limit ++ ("\nOFFSET " ++ toString offset)) := by
    rw [← String.append_assoc, ← String.append_assoc]
    rfl
  rw [Piece.fill, Piece.fill, rows, fill_text_bound f _ lowSigned, ← counted, clause]
  rfl

/-- The window of a slice asks for the limit and the offset of its bounds. -/
theorem fill_window (f : Flavor) {high : Option Bound}
    (lowSigned : SignedBound params cleaned number low)
    (highSigned : ∀ b ∈ high, SignedBound params cleaned number b) :
    Piece.fill (holeText f params cleaned) (f.window low high) =
      .ok (f.limits (low.limitOf number high) (low.offsetOf number)) := by
  cases high with
  | none =>
    by_cases zero : low.isZero
    · simp only [Flavor.window, Bound.limitOf, Bound.offsetOf, zero, ↓reduceIte]
      rfl
    · simp only [Flavor.window, Bound.limitOf, Bound.offsetOf, zero]
      cases f <;> exact fill_text_bound _ _ lowSigned
  | some b =>
    have signed := highSigned b rfl
    cases low with
    | param p => cases b <;> exact fill_span f lowSigned signed
    | row n =>
      cases b with
      | row m =>
        by_cases start : 0 < n
        · have later : (Bound.row n).offsetOf number = some (n : Int) :=
            if_neg (by simp [Bound.isZero]; omega)
          rw [Flavor.window, if_pos start, later]
          exact congrArg Except.ok (by rw [String.append_empty, ← String.append_assoc]; rfl)
        · obtain rfl : n = 0 := by omega
          rw [Flavor.window, if_neg start]
          exact congrArg Except.ok String.append_empty
      | param p =>
        by_cases zero : (Bound.row n).isZero
        · simp only [Flavor.window, Bound.limitOf, Bound.offsetOf, zero, ↓reduceIte]
          exact fill_text_bound f _ signed
        · simp only [Flavor.window, Bound.limitOf, Bound.offsetOf, zero]
          exact fill_span f lowSigned signed

end

end Prepared

end PreparedSql
