import PreparedSql.Library.Author
import PreparedSql.Proofs.FailedCompilation

/-! Which parameters have to be arrays. On its way down an expression a walk hands on what the
expression is compared by, and a visit refuses a scalar that is to be compared by a membership test.
So it depends on all that stands between the test and the parameter: signs and directions hand the
test on, a list and every other operator do not. But the test hands itself to both of its operands,
so that it asks for an array on its left as well, where one value is meant. -/
namespace PreparedSql

/-! ### Where a comparison reaches -/

namespace Lookup

/-- What a list hands on to its members. -/
def ofMember (k : Lookup) : Lookup :=
  match k with
  | .binary .isIn => .binary .equal
  | _ => k

/-- What a unary operator hands on, of what it is given. -/
def under (k : Lookup) : UnaryOperator → Lookup
  | .negative => k
  | .not => .none
  | op => .unary op

/-- What a binary operator hands on. -/
def between (op : BinaryOperator) : Lookup :=
  if op.isLogical then .none else .binary op

/-- The comparisons that not every parameter can be prepared for. -/
def isTest : Lookup → Bool
  | .binary .isIn | .unary .isNull | .unary .isNotNull => true
  | _ => false

variable {k given : Lookup}

theorem ofMember_eq (test : k.isTest = true) :
    given.ofMember = k ↔ given = k ∧ k ≠ .binary .isIn := by
  unfold ofMember
  split
  · constructor
    · rintro rfl
      cases test
    · rintro ⟨rfl, other⟩
      exact absurd rfl other
  · next other =>
    constructor
    · rintro rfl
      exact ⟨rfl, other⟩
    · exact And.left

theorem between_eq (test : k.isTest = true) {op : BinaryOperator} :
    between op = k ↔ k = .binary op := by
  unfold between
  cases op with
  | and | or => constructor <;> (rintro rfl; cases test)
  | _ => exact eq_comm

theorem under_eq (test : k.isTest = true) {op : UnaryOperator} :
    given.under op = k ↔ op = .negative ∧ given = k ∨ k = .unary op := by
  cases op with
  | negative =>
    constructor
    · exact fun same => .inl ⟨rfl, same⟩
    · rintro (⟨_, same⟩ | rfl)
      · exact same
      · cases test
  | not =>
    constructor
    · rintro rfl
      cases test
    · rintro (⟨other, _⟩ | rfl)
      · cases other
      · cases test
  | isNull | isNotNull => simp [under, eq_comm]

theorem ne_none (test : k.isTest = true) : Lookup.none ≠ k := by
  rintro rfl
  cases test

end Lookup

namespace Expr

/-- What the expression is put together from. -/
def parts : Expr → List Expr
  | binary _ l r => [l, r]
  | unary _ e | ordered _ e => [e]
  | list items => items
  | cases whens otherwise =>
    whens.flatMap (fun (condition, e) => [condition, e]) ++ otherwise.toList
  | column _ | reference _ | param _ | bound _ | literal _ | truth _ | raw _ => []

/-- The expression stands somewhere in the other one, or is it. -/
inductive Occurs (x : Expr) : Expr → Prop where
  | here : Occurs x x
  | inside {e part : Expr} (member : part ∈ e.parts) (occurs : Occurs x part) : Occurs x e

/-- What the expression is compared by, its parts are: a sign or a direction changes nothing about
it, and the members of a list are compared one by one, unless it is for membership. -/
def handsOn (k : Lookup) : Expr → Bool
  | unary .negative _ | ordered _ _ => true
  | list _ => k ≠ .binary .isIn
  | _ => false

/-- The parameter is compared when the expression is. -/
inductive Compared (k : Lookup) (p : Param) : Expr → Prop where
  | itself : Compared k p (param p)
  | inside {e part : Expr} (handed : e.handsOn k = true) (member : part ∈ e.parts)
      (compared : Compared k p part) : Compared k p e

/-- What the expression compares so: both operands, or the only one. -/
def operandsFor (k : Lookup) : Expr → List Expr
  | binary op l r => if k = .binary op then [l, r] else []
  | unary op e => if k = .unary op then [e] else []
  | _ => []

/-- Somewhere in the expression the parameter is compared so. -/
def Tests (k : Lookup) (p : Param) (e : Expr) : Prop :=
  ∃ x, Occurs x e ∧ ∃ o ∈ operandsFor k x, Compared k p o

section
variable {k : Lookup} {p : Param} {e : Expr}

theorem compared_iff : Compared k p e ↔
    e = .param p ∨ e.handsOn k = true ∧ ∃ part ∈ e.parts, Compared k p part := by
  constructor
  · intro compared
    cases compared with
    | itself => exact .inl rfl
    | inside handed member compared => exact .inr ⟨handed, _, member, compared⟩
  · rintro (rfl | ⟨handed, part, member, compared⟩)
    · exact .itself
    · exact .inside handed member compared

theorem tests_iff : Tests k p e ↔
    (∃ o ∈ operandsFor k e, Compared k p o) ∨ ∃ part ∈ e.parts, Tests k p part := by
  constructor
  · rintro ⟨x, occurs, compared⟩
    cases occurs with
    | here => exact .inl compared
    | inside member occurs => exact .inr ⟨_, member, x, occurs, compared⟩
  · rintro (compared | ⟨part, member, x, occurs, compared⟩)
    · exact ⟨e, .here, compared⟩
    · exact ⟨x, .inside member occurs, compared⟩

end

/-! ### What a walk meets -/

mutual

/-- The parameters of the expression from left to right, each with what it is compared by. -/
def lookups (k : Lookup) : Expr → List (Param × Lookup)
  | param p => [(p, k)]
  | bound (.param p) => [(p, .slice)]
  | binary op l r => lookups (.between op) l ++ lookups (.between op) r
  | unary op e => lookups (k.under op) e
  | list items => itemLookups k.ofMember items
  | cases whens otherwise => branchLookups whens ++ otherwiseLookups otherwise
  | ordered _ e => lookups k e
  | column _ | reference _ | bound (.row _) | literal _ | truth _ | raw _ => []

def itemLookups (k : Lookup) : List Expr → List (Param × Lookup)
  | [] => []
  | e :: rest => lookups k e ++ itemLookups k rest

def branchLookups : List (Expr × Expr) → List (Param × Lookup)
  | [] => []
  | (condition, e) :: rest => lookups .none condition ++ (lookups .none e ++ branchLookups rest)

def otherwiseLookups : Option Expr → List (Param × Lookup)
  | none => []
  | some e => lookups .none e

end

section
variable {k given : Lookup} {p : Param}

mutual

/-- A test meets the parameters that it compares, and those that the expression is given to
compare. -/
theorem mem_lookups (test : k.isTest = true) (given : Lookup) : (e : Expr) →
    ((p, k) ∈ lookups given e ↔ given = k ∧ Compared k p e ∨ Tests k p e)
  | column _ | reference _ | bound (.row _) | literal _ | truth _ | raw _ => by
    rw [compared_iff, tests_iff]
    simp [lookups, handsOn, operandsFor, parts]
  | bound (.param q) => by
    rw [compared_iff, tests_iff]
    simp only [lookups, handsOn, operandsFor, parts, List.mem_singleton, Prod.mk.injEq]
    constructor
    · rintro ⟨rfl, rfl⟩
      cases test
    · simp
  | param q => by
    rw [compared_iff, tests_iff]
    simp [lookups, handsOn, operandsFor, show (param q).parts = [] from rfl, and_comm, eq_comm]
  | binary op l r => by
    rw [compared_iff, tests_iff, lookups, List.mem_append, mem_lookups test _ l,
      mem_lookups test _ r, Lookup.between_eq test]
    by_cases asks : k = .binary op
    · simp [handsOn, operandsFor, parts, asks, or_assoc, or_left_comm]
    · simp [handsOn, operandsFor, parts, asks]
  | unary op e => by
    have handed : (unary op e).handsOn k = true ↔ op = .negative := by cases op <;> simp [handsOn]
    rw [compared_iff, tests_iff, lookups, mem_lookups test _ e, Lookup.under_eq test, handed]
    by_cases asks : k = .unary op
    · have other : op ≠ .negative := by
        rintro rfl
        rw [asks] at test
        cases test
      simp [operandsFor, parts, asks, other]
    · simp [operandsFor, parts, asks, and_comm, and_assoc]
  | list items => by
    rw [compared_iff, tests_iff, lookups, mem_itemLookups test _ items, Lookup.ofMember_eq test]
    by_cases several : k = .binary .isIn <;>
      simp [handsOn, operandsFor, parts, several, and_or_left, exists_or, and_left_comm]
  | cases whens otherwise => by
    rw [compared_iff, tests_iff, lookups, List.mem_append, mem_branchLookups test whens,
      mem_otherwiseLookups test otherwise, parts]
    simp only [handsOn, operandsFor, List.mem_append, or_and_right, exists_or]
    simp
  | ordered _ e => by
    rw [compared_iff, tests_iff, lookups, mem_lookups test given e]
    simp [handsOn, operandsFor, parts]

theorem mem_itemLookups (test : k.isTest = true) (given : Lookup) : (es : List Expr) →
    ((p, k) ∈ itemLookups given es ↔ ∃ e ∈ es, given = k ∧ Compared k p e ∨ Tests k p e)
  | [] => by simp [itemLookups]
  | e :: rest => by
    rw [itemLookups, List.mem_append, mem_lookups test given e, mem_itemLookups test given rest]
    simp

theorem mem_branchLookups (test : k.isTest = true) : (whens : List (Expr × Expr)) →
    ((p, k) ∈ branchLookups whens ↔
      ∃ e ∈ whens.flatMap (fun (condition, e) => [condition, e]), Tests k p e)
  | [] => by simp [branchLookups]
  | (condition, e) :: rest => by
    rw [branchLookups, List.mem_append, List.mem_append, mem_lookups test .none condition,
      mem_lookups test .none e, mem_branchLookups test rest]
    simp [Lookup.ne_none test]

theorem mem_otherwiseLookups (test : k.isTest = true) : (otherwise : Option Expr) →
    ((p, k) ∈ otherwiseLookups otherwise ↔ ∃ e ∈ otherwise.toList, Tests k p e)
  | none => by simp [otherwiseLookups]
  | some e => by simp [otherwiseLookups, mem_lookups test .none e, Lookup.ne_none test]

end

end

end Expr

namespace Prepared

/-- Whether a parameter can be prepared where it is compared so. -/
def verdict (p : Param) : Lookup → Except Failure Unit
  | .unary .isNull | .unary .isNotNull => .error (.unsupportedLookup "isnull")
  | .binary .isIn => if p.isArray then .ok () else .error (.arrayParameterRequired p.name)
  | _ => .ok ()

/-- The visitor that only says whether the parameters can be prepared. -/
def checker : Visitor (Except Failure) where
  types := .ok .empty
  visit p s := verdict p s.lookup

/-- Settling types says the same, whatever types are settled. -/
theorem resolver_related :
    resolver.Related checker fun a outcome => ∀ ts j, (a.exec ts j).1.1 = outcome :=
  { done := fun _ _ => rfl
    next := by
      intro a b outcome outcome' first second ts j
      rw [Action.exec_bind, ← first ts j]
      rcases a.exec ts j with ⟨⟨failure | _, ts'⟩, j'⟩
      · rfl
      · exact second ts' j'
    types := fun each ts j => each ts .empty ts j
    visit := by
      intro p s s' same ts j
      have settles : ((resolve.settle p s).exec ts j).1.1 = .ok () := by
        unfold resolve.settle
        cases s.target <;> rfl
      show ((resolve p s).exec ts j).1.1 = verdict p s'.lookup
      rw [← same]
      unfold resolve verdict
      cases s.lookup with
      | none | slice => exact settles
      | unary op => cases op <;> first | rfl | exact settles
      | binary op =>
        cases op with
        | isIn =>
          dsimp only
          split
          · exact settles
          · rfl
        | _ => first | rfl | exact settles }

/-- Whether all of them can be prepared, in order. -/
def judge (met : List (Param × Lookup)) : Except Failure Unit :=
  met.forM fun (p, k) => verdict p k

theorem judge_append (met later : List (Param × Lookup)) :
    judge (met ++ later) = judge met >>= fun _ => judge later :=
  List.forM_append

theorem judge_single (p : Param) (k : Lookup) : judge [(p, k)] = verdict p k := by
  simp [judge]

end Prepared

open Prepared

theorem Site.lookup_ofMember_eq (s : Site) : s.ofMember.lookup = s.lookup.ofMember := by
  unfold ofMember
  split
  · next several => rw [several, Lookup.ofMember]
  · next other =>
    unfold Lookup.ofMember
    split
    · next several => exact absurd several other
    · rfl

theorem Site.lookup_under_eq (s : Site) (op : UnaryOperator) :
    (s.under op).lookup = s.lookup.under op := by
  cases op <;> rfl

namespace Expr

mutual

/-- The walk of the checker judges what it meets. -/
theorem walk_checker (s : Site) : (e : Expr) → e.walk checker s = judge (lookups s.lookup e)
  | .column _ | .reference _ | .bound (.row _) | .literal _ | .truth _ | .raw _ => rfl
  | .param p => (judge_single p _).symm
  | .bound (.param p) => (judge_single p .slice).symm
  | .binary op l r => by
    rw [walk, lookups, judge_append, Lookup.between]
    split
    · rw [walk_checker {} l, walk_checker {} r]
    · show (walk checker _ l >>= fun _ => walk checker _ r) = _
      rw [walk_checker _ l, walk_checker _ r]
      rfl
  | .unary op e => by rw [walk, lookups, walk_checker _ e, Site.lookup_under_eq]
  | .list items => by rw [walk, lookups, walkItems_checker _ items, Site.lookup_ofMember_eq]
  | .cases whens otherwise => by
    rw [walk, lookups, judge_append]
    show (walkBranches checker _ whens >>= fun _ => walkOtherwise checker _ otherwise) = _
    rw [walkBranches_checker rfl whens, walkOtherwise_checker rfl otherwise]
  | .ordered _ e => by rw [walk, lookups, walk_checker s e]

theorem walkItems_checker (s : Site) : (es : List Expr) →
    walkItems checker s es = judge (itemLookups s.lookup es)
  | [] => rfl
  | e :: rest => by
    rw [walkItems, itemLookups, judge_append, walk_checker s e, walkItems_checker s rest]

theorem walkBranches_checker {s : Site} (apart : s.lookup = .none) :
    (whens : List (Expr × Expr)) → walkBranches checker s whens = judge (branchLookups whens)
  | [] => rfl
  | (condition, e) :: rest => by
    rw [walkBranches, branchLookups, judge_append, judge_append, walk_checker {} condition,
      walk_checker s e, walkBranches_checker apart rest, apart]

theorem walkOtherwise_checker {s : Site} (apart : s.lookup = .none) :
    (otherwise : Option Expr) →
      walkOtherwise checker s otherwise = judge (otherwiseLookups otherwise)
  | none => rfl
  | some e => by rw [walkOtherwise, otherwiseLookups, walk_checker s e, apart]

end

end Expr

namespace Query

/-- The parameters that the walk over a query meets in its expressions. -/
def lookups (q : Query) : List (Param × Lookup) :=
  q.expressions.flatMap (Expr.lookups .none)

/-- Somewhere in the query the parameter is compared so. -/
def Tests (q : Query) (k : Lookup) (p : Param) : Prop :=
  ∃ e ∈ q.expressions, Expr.Tests k p e

theorem mem_lookups {q : Query} {k : Lookup} {p : Param} (test : k.isTest = true) :
    (p, k) ∈ q.lookups ↔ q.Tests k p := by
  have given (e : Expr) : (p, k) ∈ Expr.lookups .none e ↔ Expr.Tests k p e := by
    rw [Expr.mem_lookups test]
    simp [Lookup.ne_none test]
  simp only [lookups, List.mem_flatMap, given, Tests]

/-- A query that meets one parameter compares it in one way. -/
theorem not_tests_of_met {q : Query} {k other : Lookup} {r : Param}
    (met : q.lookups = [(r, other)]) (test : k.isTest = true) (apart : k ≠ other) (p : Param) :
    ¬ q.Tests k p := by
  intro tests
  have member := (mem_lookups test).mpr tests
  rw [met, List.mem_singleton] at member
  cases member
  exact apart rfl

/-- The bounds of a slice can always be prepared. -/
theorem walk_checker (q : Query) : q.walk checker = judge q.lookups := by
  have entries {α : Type} (es : List (α × Expr)) :
      (es.forM fun entry => entry.2.walk checker {}) =
        judge ((es.map (·.2)).flatMap (Expr.lookups .none)) := by
    induction es with
    | nil => rfl
    | cons entry rest ih =>
      rw [List.map_cons, List.flatMap_cons, judge_append, ← ih, ← Expr.walk_checker {}]
      rfl
  have condition : q.condition.forM (Expr.walk checker {}) =
      judge (q.condition.toList.flatMap (Expr.lookups .none)) := by
    cases q.condition with
    | none => rfl
    | some e => exact (Expr.walk_checker {} e).trans (by simp)
  have bounds : (q.low.walk checker >>= fun _ => q.high.forM (Bound.walk checker)) = .ok () := by
    cases q.low <;> cases q.high with
    | none => rfl
    | some b => cases b <;> rfl
  rw [lookups, expressions, List.flatMap_append, List.flatMap_append, judge_append, judge_append,
    ← entries, ← entries, ← condition, bind_assoc]
  show (_ >>= fun _ => _ >>= fun _ => _ >>= fun _ => q.low.walk checker >>= fun _ =>
    q.high.forM (Bound.walk checker)) = _
  have whole (step : Except Failure Unit) : (step >>= fun _ => .ok ()) = step := bind_pure_unit
  simp only [bounds, whole]

end Query

/-! ### What a compilation demands -/

namespace Prepared

theorem verdict_error {p : Param} {k : Lookup} {failure : Failure}
    (refused : verdict p k = .error failure) :
    k = .binary .isIn ∧ p.isArray = false ∧ failure = .arrayParameterRequired p.name ∨
      k = .unary .isNull ∨ k = .unary .isNotNull := by
  unfold verdict at refused
  split at refused
  · exact .inr (.inl rfl)
  · exact .inr (.inr rfl)
  · split at refused
    · cases refused
    · next scalar =>
      cases refused
      exact .inl ⟨rfl, Bool.eq_false_iff.mpr scalar, rfl⟩
  · cases refused

section
variable {v : Vendor} {q : Query} {failure : Failure}

/-- The walk that settles types fails as the parameters that it meets are judged. -/
theorem walk_resolver (q : Query) (ts : Types) (j : Journal) :
    ((q.walk resolver).exec ts j).1.1 = judge q.lookups := by
  rw [← q.walk_checker]
  exact q.walk_related resolver_related ts j

/-- Apart from null tests a walk is refused over a scalar that is compared by membership. -/
theorem judge_error (unasked : ∀ p, ¬ q.Tests (.unary .isNull) p ∧ ¬ q.Tests (.unary .isNotNull) p)
    (refused : judge q.lookups = .error failure) :
    ∃ p, p.isArray = false ∧ q.Tests (.binary .isIn) p ∧
      failure = .arrayParameterRequired p.name := by
  obtain ⟨⟨p, k⟩, met, refused⟩ := Outcome.forM_error refused
  rcases verdict_error refused with ⟨rfl, scalar, rfl⟩ | rfl | rfl
  · exact ⟨p, scalar, (Query.mem_lookups rfl).mp met, rfl⟩
  · exact absurd ((Query.mem_lookups rfl).mp met) (unasked p).1
  · exact absurd ((Query.mem_lookups rfl).mp met) (unasked p).2

theorem judge_ok (through : judge q.lookups = .ok ()) {p : Param}
    (tests : q.Tests (.binary .isIn) p) : p.isArray = true := by
  have fits := Outcome.forM_ok.mp through (p, .binary .isIn) ((Query.mem_lookups rfl).mpr tests)
  dsimp only [verdict] at fits
  split at fits
  · assumption
  · cases fits

variable {ts settled : Types} {j noted : Journal} {outcome : Except Failure Artifact}

private theorem not_arrayRequired (through : judge q.lookups = .ok ())
    (run : (compile v q).exec ts j = ((outcome, settled), noted)) (name : String) :
    outcome ≠ .error (.arrayParameterRequired name) := by
  rintro rfl
  cases cause_of_failed run with
  | misplaced _ refused =>
    have other := (refused ts j).symm.trans ((walk_resolver q ts j).trans through)
    cases other
  | unwritten _ _ unwritten =>
    cases write_unknowing unwritten

/-- What a walk does not refuse can be prepared just when the calendar has its literals, if its
parameters are known and find types. -/
private theorem compiled_iff_of_judged (through : judge q.lookups = .ok ())
    (run : (compile v q).exec ts j = ((outcome, settled), noted))
    (registered : ∀ p, .param p ∈ q.leaves → ∃ r, q.params.byToken? p.token = some r)
    (typed : ∀ p ∈ q.params.params, settled.fieldType? p ≠ none) :
    (∃ a, outcome = .ok a) ↔ q.inCalendar = true := by
  rcases walked : (q.walk resolver).exec ts j with ⟨⟨answer, settled'⟩, j'⟩
  have passed := (walk_resolver q ts j).trans through
  have same := types_of_compile v q ts j
  rw [walked] at passed same
  rw [run] at same
  cases passed
  cases same
  constructor
  · rintro ⟨a, rfl⟩
    exact inCalendar_of_written (compile_ok_iff.mp ⟨_, run⟩).2.2
  · intro charted
    obtain ⟨a, _, compiled⟩ := compile_total (v := v) registered charted walked typed
    rw [run] at compiled
    cases compiled
    exact ⟨a, rfl⟩

/-- Where no null test stands in the way, a query is refused for want of an array exactly when a
scalar is an operand of a membership test, on whichever side, and it is refused over such a scalar.
All other queries compile, as far as their parameters are known and find types and no literal leaves
the calendar at UTC; a type that was there before stays. -/
theorem compile_demandsArrays
    (unasked : ∀ p, ¬ q.Tests (.unary .isNull) p ∧ ¬ q.Tests (.unary .isNotNull) p)
    (run : (compile v q).exec ts j = ((outcome, settled), noted)) :
    ((∃ name, outcome = .error (.arrayParameterRequired name)) ↔
        ∃ p, p.isArray = false ∧ q.Tests (.binary .isIn) p) ∧
      (∀ name, outcome = .error (.arrayParameterRequired name) →
        ∃ p, p.isArray = false ∧ q.Tests (.binary .isIn) p ∧ p.name = name) ∧
      ((∀ p, .param p ∈ q.leaves → ∃ r, q.params.byToken? p.token = some r) →
        (∀ p ∈ q.params.params, settled.fieldType? p ≠ none) →
          ((∃ a, outcome = .ok a) ↔
            (∀ p, q.Tests (.binary .isIn) p → p.isArray = true) ∧ q.inCalendar = true)) ∧
      ts.Extends settled := by
  have more : ts.Extends settled := by
    have fills := compile_fills v q ts j
    rw [run] at fills
    exact fills.fieldType
  cases judged : judge q.lookups with
  | error failure =>
    obtain ⟨p, scalar, tests, rfl⟩ := judge_error unasked judged
    have refused : outcome = .error (.arrayParameterRequired p.name) := by
      have refused := compile_of_refused (v := v)
        (fun ts j => (walk_resolver q ts j).trans judged) ts j
      rwa [run] at refused
    subst refused
    refine ⟨⟨fun _ => ⟨p, scalar, tests⟩, fun _ => ⟨_, rfl⟩⟩, ?_, fun _ _ => ?_, more⟩
    · rintro name ⟨⟩
      exact ⟨p, scalar, tests, rfl⟩
    · constructor
      · rintro ⟨a, other⟩
        cases other
      · rintro ⟨arrays, _⟩
        rw [arrays p tests] at scalar
        cases scalar
  | ok =>
    have arrays (p : Param) (tests : q.Tests (.binary .isIn) p) : p.isArray = true :=
      judge_ok judged tests
    have accepted (name : String) : outcome ≠ .error (.arrayParameterRequired name) :=
      not_arrayRequired judged run name
    refine ⟨⟨?_, ?_⟩, fun name failed => absurd failed (accepted name), ?_, more⟩
    · rintro ⟨name, failed⟩
      exact absurd failed (accepted name)
    · rintro ⟨p, scalar, tests⟩
      rw [arrays p tests] at scalar
      cases scalar
    · intro registered typed
      rw [compiled_iff_of_judged judged run registered typed]
      exact (and_iff_right arrays).symm

end

section
open Library

def wantedKey : Param := .scalar "p" "n"

def wantedTypes : Types := Types.empty.inferType wantedKey .integer

/-- The authors whose key is the number, in a list of one. -/
def keyAmongItems : Query :=
  { Query.ofModel Author.model with
    condition := some (.binary .isIn (.column Author.idColumn) (.list [.param wantedKey]))
    params := ⟨[wantedKey]⟩ }

/-- All authors, if the number is one. -/
def keyInList : Query :=
  { Query.ofModel Author.model with
    condition := some (.binary .isIn (.param wantedKey)
      (.list [.literal (Author.known 1 "Svetlana Alexievich").key]))
    params := ⟨[wantedKey]⟩ }

/-- A scalar among the items of a list is accepted. -/
theorem keyAmongItems_accepted : ∃ a settled noted,
    (compile .postgres keyAmongItems).exec wantedTypes [] = ((.ok a, settled), noted) := by
  have met : keyAmongItems.lookups = [(wantedKey, .binary .equal)] := rfl
  have unasked (op : UnaryOperator) (test : (Lookup.unary op).isTest = true) (p : Param) :
      ¬ keyAmongItems.Tests (.unary op) p :=
    Query.not_tests_of_met met test (by rintro ⟨⟩) p
  have registered : ∀ p, .param p ∈ keyAmongItems.leaves →
      ∃ r, keyAmongItems.params.byToken? p.token = some r := by
    intro p occurs
    have known : p = wantedKey := by
      simpa [keyAmongItems, Query.ofModel, Query.leaves, Query.frontLeaves, Query.expressions,
        Expr.leaves, Expr.itemLeaves, Bound.leaves, Bound.zero] using occurs
    exact ⟨wantedKey, by rw [known]; rfl⟩
  rcases run : (compile .postgres keyAmongItems).exec wantedTypes [] with
    ⟨⟨outcome, settled⟩, noted⟩
  obtain ⟨_, _, accepted, more⟩ := compile_demandsArrays
    (fun p => ⟨unasked .isNull rfl p, unasked .isNotNull rfl p⟩) run
  have typed : ∀ p ∈ keyAmongItems.params.params, settled.fieldType? p ≠ none := by
    intro p member
    rw [List.mem_singleton.mp member, Types.fieldType?_of_extends more (by decide)]
    decide
  have scalars (p : Param) : ¬ keyAmongItems.Tests (.binary .isIn) p :=
    Query.not_tests_of_met met rfl (by rintro ⟨⟩) p
  obtain ⟨a, rfl⟩ := (accepted registered typed).mpr ⟨fun p tests => absurd tests (scalars p), rfl⟩
  exact ⟨a, settled, noted, rfl⟩

/-- A number that is looked for in a list of numbers is refused for not being an array, though there
is nothing else on the right of the test. -/
theorem keyInList_refused :
    (∀ e ∈ keyInList.expressions, ∀ l r p, Expr.Occurs (.binary .isIn l r) e →
        ¬ Expr.Compared (.binary .isIn) p r) ∧
      (∀ p, ¬ keyInList.Tests (.unary .isNull) p ∧ ¬ keyInList.Tests (.unary .isNotNull) p) ∧
      (∀ p ∈ keyInList.params.params, wantedTypes.fieldType? p ≠ none) ∧
      ((compile .postgres keyInList).exec wantedTypes []).1.1 =
        .error (.arrayParameterRequired "n") := by
  have met : keyInList.lookups = [(wantedKey, .binary .isIn)] := rfl
  have unasked (op : UnaryOperator) (test : (Lookup.unary op).isTest = true) (p : Param) :
      ¬ keyInList.Tests (.unary op) p :=
    Query.not_tests_of_met met test (by rintro ⟨⟩) p
  refine ⟨?_, fun p => ⟨unasked .isNull rfl p, unasked .isNotNull rfl p⟩, by decide, rfl⟩
  intro e member l r p occurs compared
  rw [show keyInList.expressions = [_] from rfl, List.mem_singleton] at member
  subst member
  cases occurs with
  | here =>
    rw [Expr.compared_iff] at compared
    rcases compared with other | ⟨handed, _⟩
    · cases other
    · cases handed
  | inside member occurs =>
    simp only [Expr.parts, List.mem_cons, List.not_mem_nil, or_false] at member
    rcases member with rfl | rfl
    · cases occurs with
      | inside member _ => cases member
    · cases occurs with
      | inside member occurs =>
        rw [List.mem_singleton.mp member] at occurs
        cases occurs with
        | inside member _ => cases member

end

end Prepared

end PreparedSql
