import PreparedSql.Library.Author
import PreparedSql.Proofs.ArgumentKinds
import PreparedSql.Proofs.CompiledParameters
import PreparedSql.Proofs.SettledCells
import PreparedSql.Proofs.SoundCleaning
import PreparedSql.Proofs.WindowNumbers

/-! Executions of slices between parameters. A parameter of which nothing is known is typed by its
slice, as a number with sign that is not NULL, and every such number is accepted as it is. The
number of rows that is computed from two bounds is never negative. A bound that is written itself
is what its parameter is given: where that is a negative number, the server reads one. -/
namespace PreparedSql

/-! ### Big integers -/

namespace FieldType

/-- What is cleaned for a big integer is a number with sign. -/
theorem clean_bigInteger {v x : Value} (cleaned : bigInteger.clean v false = .ok x) :
    ∃ n : Ranged .int64, x = .int .int64 (some n) := by
  unfold clean at cleaned
  split at cleaned
  · cases cleaned
  · obtain ⟨n, -, -, answer⟩ :=
      (cleanIntegerAs_answers bigInteger .int64 v).answered x cleaned
    exact ⟨_, answer⟩

/-- Every number with sign is cleaned to itself. -/
theorem clean_int64 (n : Ranged .int64) (nullable : Bool) :
    bigInteger.clean (.int .int64 (some n)) nullable = .ok (.int .int64 (some n)) := by
  have cleaned : cleanInteger (.int .int64 (some n)) IntKind.int64.least IntKind.int64.greatest =
      .ok n.value := cleanInteger_within rfl n.inRange.1 n.inRange.2
  show (do
    let m ← cleanInteger (.int .int64 (some n)) IntKind.int64.least IntKind.int64.greatest
    return Value.int .int64 (some (Ranged.clamp .int64 m))) = _
  rw [cleaned]
  exact congrArg (fun m => Except.ok (Value.int .int64 (some m))) n.clamp_value

end FieldType

namespace Param

variable {p : Param} {types : Types}

/-- The value for a scalar that is a big integer is a number with sign. -/
theorem clean_scalar_bigInteger {a : Argument} {vs : List Value} (scalar : p.isArray = false)
    (typed : types.fieldType? p = some .bigInteger) (present : types.isNullable p = false)
    (cleaned : p.clean types a = .ok vs) :
    ∃ n : Ranged .int64, vs = [.int .int64 (some n)] := by
  have sized : p.size = none := by simpa [isArray] using scalar
  simp only [clean, typed, sized, present] at cleaned
  obtain ⟨x, one, answer⟩ := Outcome.bind_ok.mp cleaned
  cases answer
  obtain ⟨n, rfl⟩ := FieldType.clean_bigInteger (cleanOne_ok.mp one)
  exact ⟨n, rfl⟩

theorem clean_scalar_int64 (scalar : p.isArray = false)
    (typed : types.fieldType? p = some .bigInteger) (n : Ranged .int64) :
    p.clean types (.value (.int .int64 (some n))) = .ok [.int .int64 (some n)] := by
  have sized : p.size = none := by simpa [isArray] using scalar
  have one : p.cleanOne .bigInteger (types.isNullable p) (.int .int64 (some n)) =
      .ok (.int .int64 (some n)) := cleanOne_ok.mpr (FieldType.clean_int64 ..)
  simp only [clean, typed, sized, Argument.carried, one]
  rfl

end Param

/-! ### Types of bounds -/

/-- What a slice says of a parameter: it is a big integer, and not NULL. -/
def Typing.ofSlice : Typing where
  fieldType := some .bigInteger
  nullable := some false

/-- Nothing is known of the parameter, a scalar, and it stands in the query as a bound only. -/
structure Query.Untyped (q : Query) (types : Types) (p : Param) : Prop where
  scalar : p.isArray = false
  unknown : types.cell p.token = {}
  apart : ∀ p', .param p' ∈ q.frontLeaves → p'.token ≠ p.token

namespace Prepared

/-- A bound types its own parameter, where nothing is known of it. -/
private theorem cell_of_bound {b : Bound} {types : Types} {token : String} (j : Journal)
    (start : types.cell token = {} ∨ types.cell token = .ofSlice) :
    ∃ types', (b.walk resolver).exec types j = ((.ok (), types'), j) ∧
      (types'.cell token = .ofSlice ∨
        types'.cell token = types.cell token ∧ ∀ p, b = .param p → p.token ≠ token) := by
  cases b with
  | row n => exact ⟨types, rfl, .inr ⟨rfl, fun p none => by cases none⟩⟩
  | param p =>
    refine ⟨(types.inferType p .bigInteger).inferNullable p false, rfl, ?_⟩
    by_cases own : p.token = token
    · subst own
      left
      rcases start with unknown | known
      · simp [Types.inferNullable, Types.inferType, unknown, Typing.ofSlice]
      · simp [Types.inferNullable, Types.inferType, known, Typing.ofSlice]
    · have fills : types.Fills (p.token = ·) ((types.inferType p .bigInteger).inferNullable p false) :=
        Types.fills_trans (Types.fills_inferType rfl _) (Types.fills_inferNullable rfl _)
      refine .inr ⟨fills.spared token own, fun p' same => ?_⟩
      cases same
      exact own

/-- The walk over the expressions of a query leaves the cells of other tokens alone. -/
private theorem spared_by_front {q : Query} {types types' : Types} {j j' : Journal} {token : String}
    (walked : (Query.walkFront resolver q).exec types j = ((.ok (), types'), j'))
    (apart : ∀ p, .param p ∈ q.frontLeaves → p.token ≠ token) :
    types'.cell token = types.cell token := by
  let whole : Query := { q with low := .zero, high := none }
  have front : whole.leaves = q.frontLeaves := Query.leaves_of_rows rfl (by simp [whole])
  have run : (whole.walk resolver).exec types j = ((.ok (), types'), j') := by
    rw [Query.walk_eq]
    exact Action.exec_bind_ok.mpr ⟨_, _, _, walked, rfl⟩
  have fills := walk_fills whole types j
  rw [run] at fills
  refine fills.spared token ?_
  rintro ⟨p, occurs, same⟩
  rw [front] at occurs
  exact apart p occurs same

variable {v : Vendor} {q : Query} {a : Artifact} {types types' types'' : Types} {j j' : Journal}
  {p : Param}

/-- A parameter of which nothing is known is typed by its slice. -/
theorem cell_of_untyped (compiled : (compile v q).exec types j = ((.ok a, types'), j'))
    (bounded : .param p ∈ q.low :: q.high.toList) (untyped : q.Untyped types p) :
    types'.cell p.token = .ofSlice := by
  obtain ⟨_, walked⟩ := (compile_ok_iff.mp ⟨_, compiled⟩).1
  rw [Query.walk_eq] at walked
  obtain ⟨_, front, k, walkedFront, rest⟩ := Action.exec_bind_ok.mp walked
  have unknown : front.cell p.token = {} :=
    (spared_by_front walkedFront untyped.apart).trans untyped.unknown
  obtain ⟨middle, walkedLow, low⟩ := cell_of_bound (b := q.low) k (.inl unknown)
  obtain ⟨_, _, _, first, rest⟩ := Action.exec_bind_ok.mp rest
  cases walkedLow.symm.trans first
  cases high : q.high with
  | none =>
    rw [high] at rest bounded
    cases rest
    obtain typed | ⟨-, other⟩ := low
    · exact typed
    · exact absurd rfl (other p (List.mem_singleton.mp bounded).symm)
  | some b =>
    rw [high] at rest bounded
    have start : middle.cell p.token = {} ∨ middle.cell p.token = .ofSlice := by
      obtain typed | ⟨same, -⟩ := low
      · exact .inr typed
      · exact .inl (same.trans unknown)
    obtain ⟨last, walkedHigh, typed | ⟨same, other⟩⟩ := cell_of_bound (b := b) k start
    · cases walkedHigh.symm.trans rest
      exact typed
    · cases walkedHigh.symm.trans rest
      obtain typed | ⟨-, otherLow⟩ := low
      · exact same.trans typed
      · rcases List.mem_cons.mp bounded with isLow | isHigh
        · exact absurd rfl (otherLow p isLow.symm)
        · exact absurd rfl (other p (List.mem_singleton.mp isHigh).symm)

/-! ### What is read in a window -/

variable {issued : String → Param} {cleaned : CleanedArguments} {as : Arguments}

/-- Accepted arguments give a parameter that its slice types a number. -/
private theorem signed_of_accepted (recorded : q.Recorded issued)
    (compiled : (compile v q).exec types j = ((.ok a, types'), j')) (more : types'.Retains types'')
    (accepted : q.params.cleanArguments types'' as = .ok cleaned)
    (bounded : .param p ∈ q.low :: q.high.toList) (untyped : q.Untyped types p) :
    types''.fieldType? p = some .bigInteger ∧
      ∃ n : Ranged .int64, valuesOf cleaned p.name = [.int .int64 (some n)] := by
  have cell := cell_of_untyped compiled bounded untyped
  have typed : types''.fieldType? p = some .bigInteger :=
    more.fieldType p _ (congrArg Typing.fieldType cell)
  have settled : types''.nullable? p = some false :=
    more.nullable p _ (congrArg Typing.nullable cell)
  have present : types''.isNullable p = false := congrArg (Option.getD · false) settled
  have member := (recorded.members p).mpr (Query.mem_leaves_of_bound bounded)
  obtain ⟨_, _, clean⟩ := Registry.cleaned_of_accepted recorded.proper.names accepted member
  exact ⟨typed, Param.clean_scalar_bigInteger untyped.scalar typed present clean⟩

/-- The number that the program reads in the value of a parameter. -/
private def numberGiven (cleaned : CleanedArguments) (p : Param) : Int :=
  (boundValue cleaned (.param p)).toOption.getD 0

private theorem numberGiven_eq {n : Ranged .int64}
    (values : valuesOf cleaned p.name = [.int .int64 (some n)]) :
    numberGiven cleaned p = n.value := by
  simp only [numberGiven, boundValue, values, Native.ofValue_int rfl]
  rfl

/-- With numbers for its bounds, the artifact of a query runs as the statement with the clause of
these numbers behind, where all values have literals. -/
private theorem runs_limits {number : Param → Int} (recorded : q.Recorded issued)
    (compiled : (compile v q).exec types j = ((.ok a, types'), j'))
    (sized : ∀ p ∈ q.params.params, (valuesOf cleaned p.name).length = p.slots)
    (signed : ∀ p, .param p ∈ q.low :: q.high.toList → Signed cleaned number p)
    (writable : ¬ Unwritable v q a cleaned) :
    ∃ front, RunsAs v types' q a cleaned
      (front ++ v.flavor.limits (q.low.limitOf number q.high) (q.low.offsetOf number)) := by
  have bounds : ∀ b ∈ q.low :: q.high.toList, SignedBound q.params cleaned number b := by
    rintro b member p rfl
    exact ⟨registered_of_recorded recorded (Query.mem_leaves_of_bound member), signed p member⟩
  have low := bounds q.low List.mem_cons_self
  have high : ∀ b ∈ q.high, SignedBound q.params cleaned number b :=
    fun b present => bounds b (List.mem_cons_of_mem _ (Option.mem_toList.mpr present))
  have rows : ∀ b ∈ q.high, Supplied cleaned (.span q.low b) := by
    intro b present
    obtain ⟨_, fed, _⟩ := slotValue_span low (high b present)
    exact ⟨_, fed⟩
  have identified := Query.identified_of_issued (Query.issued_of_recorded recorded)
  obtain ⟨text, runs, filled⟩ :=
    (runsAs_fill compiled sized (fits_pieces identified rows)).resolve_right writable
  rw [pieces_eq] at filled
  obtain ⟨front, clause, _, behind, rfl⟩ := Piece.fill_append_ok.mp filled
  cases behind.symm.trans (fill_window v.flavor low high)
  exact ⟨front, runs⟩

theorem rowsUpTo_nonneg (number : Param → Int) (low high : Bound) :
    0 ≤ low.rowsUpTo number high := by
  have greatest : 0 ≤ IntKind.int64.greatest := IntKind.int64.greatest_nonneg
  simp only [Bound.rowsUpTo]
  omega

/-- A limit is never negative, unless it is what the one parameter of a slice from the first row
is given. -/
theorem limitOf_nonneg {number : Param → Int} {low : Bound} {high : Option Bound} {n : Int}
    (limit : low.limitOf number high = some n) :
    0 ≤ n ∨ low.isZero = true ∧ ∃ p, high = some (.param p) ∧ n = number p := by
  cases high with
  | none => cases limit
  | some b =>
    cases b with
    | row m =>
      cases limit
      left
      cases low with
      | row l => exact Int.natCast_nonneg _
      | param p => exact rowsUpTo_nonneg number _ _
    | param p =>
      obtain rfl : (if low.isZero then number p else low.rowsUpTo number (.param p)) = n :=
        Option.some.inj limit
      split
      · next zero => exact .inr ⟨zero, p, rfl, rfl⟩
      · exact .inl (rowsUpTo_nonneg number _ _)

/-- An offset is never negative, unless it is what the parameter of the lower bound is given. -/
theorem offsetOf_nonneg {number : Param → Int} {low : Bound} {n : Int}
    (offset : low.offsetOf number = some n) : 0 ≤ n ∨ ∃ p, low = .param p ∧ n = number p := by
  unfold Bound.offsetOf at offset
  split at offset
  · cases offset
  · cases offset
    cases low with
    | row l => exact .inl (Int.natCast_nonneg l)
    | param p => exact .inr ⟨p, rfl, rfl⟩

/-- The numbers that a server reads in the window of an executed slice. Let nothing be known of the
parameters of the bounds before the query is compiled. Then any number with sign is accepted for
them as it is. Whatever arguments are accepted, the execution succeeds, and the server runs a
statement that ends in the clause of a limit and an offset. The number of rows between two bounds
and a row number that is written as text are not negative. What is left is a limit that is the
parameter of a slice from the first row, and an offset that is a parameter: they are the numbers
that these are given, negative ones too. -/
theorem executed_window_numbers (recorded : q.Recorded issued)
    (compiled : (compile v q).exec types j = ((.ok a, types'), j'))
    (untyped : ∀ p, .param p ∈ q.low :: q.high.toList → q.Untyped types p)
    (more : types'.Retains types'')
    (accepted : q.params.cleanArguments types'' as = .ok cleaned) :
    (∀ p, .param p ∈ q.low :: q.high.toList → ∀ n : Ranged .int64,
      p.clean types'' (.value (.int .int64 (some n))) = .ok [.int .int64 (some n)]) ∧
    ∃ front number,
      (∀ p, .param p ∈ q.low :: q.high.toList → Signed cleaned number p) ∧
      RunsAs v types' q a cleaned
        (front ++ v.flavor.limits (q.low.limitOf number q.high) (q.low.offsetOf number)) ∧
      (∀ n, q.low.limitOf number q.high = some n →
        0 ≤ n ∨ q.low.isZero = true ∧ ∃ p, q.high = some (.param p) ∧ n = number p) ∧
      (∀ n, q.low.offsetOf number = some n → 0 ≤ n ∨ ∃ p, q.low = .param p ∧ n = number p) := by
  have given (p : Param) (bounded : .param p ∈ q.low :: q.high.toList) :=
    signed_of_accepted recorded compiled more accepted bounded (untyped p bounded)
  refine ⟨fun p bounded n => ?_, ?_⟩
  · exact Param.clean_scalar_int64 (untyped p bounded).scalar (given p bounded).1 n
  have signed : ∀ p, .param p ∈ q.low :: q.high.toList →
      Signed cleaned (numberGiven cleaned) p := by
    intro p bounded
    obtain ⟨-, n, values⟩ := given p bounded
    exact ⟨(untyped p bounded).scalar, n, (numberGiven_eq values).symm, values⟩
  have sized : ∀ p ∈ q.params.params, (valuesOf cleaned p.name).length = p.slots := by
    intro p member
    obtain ⟨_, _, clean⟩ := Registry.cleaned_of_accepted recorded.proper.names accepted member
    exact Param.length_of_clean clean
  obtain ⟨front, runs⟩ := runs_limits recorded compiled sized signed fun unwritable =>
    unwritable.unaccepted _ _ accepted
  exact ⟨front, numberGiven cleaned, signed, runs, fun _ => limitOf_nonneg,
    fun _ => offsetOf_nonneg⟩

section
open Library

/-- The rows of a page begin and end at these. -/
def pageStart : Param := .scalar "s" "start"
def pageEnd : Param := .scalar "e" "end"

/-- The authors on a page. -/
def authorPage : Query :=
  { Query.ofModel Author.model with
    low := .param pageStart
    high := some (.param pageEnd)
    params := ⟨[pageStart, pageEnd]⟩ }

/-- The authors up to the end of a page. -/
def authorsUpTo : Query :=
  { Query.ofModel Author.model with
    high := some (.param pageEnd)
    params := ⟨[pageEnd]⟩ }

private def issuedOf (token : String) : Param :=
  if token = "s" then pageStart else pageEnd

private theorem leaves_authorPage (p : Param) :
    .param p ∈ authorPage.leaves ↔ p ∈ authorPage.params.params := by
  simp [authorPage, Query.ofModel, Query.leaves, Query.frontLeaves, Query.expressions, Bound.leaves]

private theorem leaves_authorsUpTo (p : Param) :
    .param p ∈ authorsUpTo.leaves ↔ p ∈ authorsUpTo.params.params := by
  simp [authorsUpTo, Query.ofModel, Query.leaves, Query.frontLeaves, Query.expressions, Bound.leaves,
    Bound.zero]

private theorem recorded_authorPage : authorPage.Recorded issuedOf where
  proper := ⟨by decide, by decide, by decide⟩
  members p := (leaves_authorPage p).symm

private theorem recorded_authorsUpTo : authorsUpTo.Recorded issuedOf where
  proper := ⟨by decide, by decide, by decide⟩
  members p := (leaves_authorsUpTo p).symm

private def minusThree : Ranged .int64 := ⟨-3, by decide⟩
private def four : Ranged .int64 := ⟨4, by decide⟩
private def minusFive : Ranged .int64 := ⟨-5, by decide⟩

/-- The number that a parameter is given is the one under its name. -/
private theorem number_of_signed {cleaned : CleanedArguments} {number : Param → Int} {p : Param}
    {n : Ranged .int64} (signed : Signed cleaned number p)
    (values : valuesOf cleaned p.name = [.int .int64 (some n)]) : number p = n.value := by
  obtain ⟨-, m, same, held⟩ := signed
  cases values.symm.trans held
  exact same.symm

/-- A page from a row below the first one up to the fourth. -/
def pageBounds : Arguments :=
  ⟨[("start", .value (.int .int64 (some minusThree))), ("end", .value (.int .int64 (some four)))]⟩

theorem authorPage_window_numbers : ∃ a types' cleaned front,
    authorPage.params.cleanArguments types' pageBounds = .ok cleaned ∧
      RunsAs .mysql types' authorPage a cleaned (front ++ "\nLIMIT 7\nOFFSET -3") := by
  obtain ⟨types', walked, typed, accepted⟩ : ∃ types',
      (authorPage.walk resolver).exec .empty [] = ((.ok (), types'), []) ∧
      (∀ p ∈ authorPage.params.params, types'.fieldType? p ≠ none) ∧
      authorPage.params.cleanArguments types' pageBounds =
        .ok [("start", [.int .int64 (some minusThree)]), ("end", [.int .int64 (some four)])] :=
    ⟨_, rfl, by decide, rfl⟩
  obtain ⟨a, j', compiled⟩ := compile_total (v := .mysql)
    (fun p occurs => ⟨p, registered_of_recorded recorded_authorPage occurs⟩) rfl walked typed
  have untyped : ∀ p, .param p ∈ authorPage.low :: authorPage.high.toList →
      authorPage.Untyped .empty p := by
    intro p bounded
    refine ⟨?_, rfl, fun p' front => by simp [authorPage, Query.ofModel, Query.frontLeaves,
      Query.expressions] at front⟩
    have scalars : ∀ p ∈ authorPage.params.params, p.isArray = false := by decide
    exact scalars p ((leaves_authorPage p).mp (Query.mem_leaves_of_bound bounded))
  obtain ⟨-, front, number, signed, runs, -, -⟩ :=
    executed_window_numbers recorded_authorPage compiled untyped types'.retains_refl accepted
  have start : number pageStart = -3 :=
    number_of_signed (n := minusThree) (signed pageStart List.mem_cons_self) rfl
  have last : number pageEnd = 4 :=
    number_of_signed (n := four) (signed pageEnd (by simp [authorPage])) rfl
  have limit : authorPage.low.limitOf number authorPage.high = some 7 := by
    show some ((Bound.param pageStart).rowsUpTo number (.param pageEnd)) = some 7
    simp only [Bound.rowsUpTo, Bound.numberOf, start, last]
    decide
  have offset : authorPage.low.offsetOf number = some (-3) := congrArg some start
  rw [limit, offset] at runs
  exact ⟨a, types', _, front, accepted, runs⟩

/-- A limit of fewer rows than none is accepted, and the server reads it. -/
theorem negative_limit_executed : ∃ a types' cleaned front,
    authorsUpTo.params.cleanArguments types'
        ⟨[("end", .value (.int .int64 (some minusFive)))]⟩ = .ok cleaned ∧
      RunsAs .postgres types' authorsUpTo a cleaned (front ++ "\nLIMIT -5") := by
  obtain ⟨types', walked, typed, accepted⟩ : ∃ types',
      (authorsUpTo.walk resolver).exec .empty [] = ((.ok (), types'), []) ∧
      (∀ p ∈ authorsUpTo.params.params, types'.fieldType? p ≠ none) ∧
      authorsUpTo.params.cleanArguments types'
        ⟨[("end", .value (.int .int64 (some minusFive)))]⟩ =
        .ok [("end", [.int .int64 (some minusFive)])] :=
    ⟨_, rfl, by decide, rfl⟩
  obtain ⟨a, j', compiled⟩ := compile_total (v := .postgres)
    (fun p occurs => ⟨p, registered_of_recorded recorded_authorsUpTo occurs⟩) rfl walked typed
  have signed : ∀ p, .param p ∈ authorsUpTo.low :: authorsUpTo.high.toList →
      Signed [("end", [.int .int64 (some minusFive)])] (fun _ => -5) p := by
    intro p bounded
    obtain rfl : p = pageEnd := by simpa [authorsUpTo, Query.ofModel, Bound.zero] using bounded
    exact ⟨rfl, minusFive, rfl, rfl⟩
  obtain ⟨front, runs⟩ := runs_limits recorded_authorsUpTo compiled (by decide) signed
    (not_unwritable (by decide))
  exact ⟨a, types', _, front, accepted, runs⟩

end

end Prepared

end PreparedSql
