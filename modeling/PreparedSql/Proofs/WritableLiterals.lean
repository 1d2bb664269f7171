import PreparedSql.Proofs.ActionRuns
import PreparedSql.Proofs.ExpressionLeaves
import PreparedSql.Proofs.TemplateFilling

/-! Which values have literals. A moment with an offset is written at UTC, and near either end of
the calendar it may leave the calendar by this. All other values have literals, whatever the
server. A statement is written out just when each literal in it is. -/
namespace PreparedSql

/-! ### Texts that are missing for one reason only -/

/-- Something is written just when a condition holds. Otherwise a moment leaves the calendar. -/
inductive WrittenWhen {α : Type} (inside : Prop) : Except Failure α → Prop where
  | written (holds : inside) (x : α) : WrittenWhen inside (.ok x)
  | outside (fails : ¬ inside) : WrittenWhen inside (.error (.conversion .outsideCalendar))

section
variable {α β : Type} {inside inside' : Prop} {a : Except Failure α} {x : α}

theorem writtenWhen_ok (x : α) : WrittenWhen True (.ok x) :=
  .written trivial x

theorem writtenWhen_congr (same : inside ↔ inside') (writes : WrittenWhen inside a) :
    WrittenWhen inside' a := by
  cases writes with
  | written holds x => exact .written (same.mp holds) x
  | outside fails => exact .outside fun holds => fails (same.mpr holds)

theorem holds_of_written (writes : WrittenWhen inside a) (written : a = .ok x) : inside := by
  subst written
  cases writes with
  | written holds => exact holds

theorem written_of_holds (writes : WrittenWhen inside a) (holds : inside) : ∃ x, a = .ok x := by
  cases writes with
  | written _ x => exact ⟨x, rfl⟩
  | outside fails => exact absurd holds fails

theorem failure_of_unwritten {failure : Failure} (writes : WrittenWhen inside a)
    (failed : a = .error failure) : failure = .conversion .outsideCalendar ∧ ¬ inside := by
  subst failed
  cases writes with
  | outside fails => exact ⟨rfl, fails⟩

theorem writtenWhen_bind {f : α → Except Failure β} (first : WrittenWhen inside a)
    (rest : ∀ x, a = .ok x → WrittenWhen inside' (f x)) :
    WrittenWhen (inside ∧ inside') (a >>= f) := by
  cases first with
  | written holds x => exact writtenWhen_congr (and_iff_right holds).symm (rest x rfl)
  | outside fails => exact .outside fun both => fails both.1

theorem writtenWhen_map (f : α → β) (writes : WrittenWhen inside a) :
    WrittenWhen inside (f <$> a) := by
  cases writes with
  | written holds x => exact .written holds (f x)
  | outside fails => exact .outside fails

theorem writtenWhen_mapM {f : α → Except Failure β} {p : α → Prop} {xs : List α}
    (each : ∀ x ∈ xs, WrittenWhen (p x) (f x)) : WrittenWhen (∀ x ∈ xs, p x) (xs.mapM f) := by
  induction xs with
  | nil => exact .written (fun _ member => nomatch member) []
  | cons x xs ih =>
    have others := ih fun y member => each y (List.mem_cons_of_mem x member)
    have rest : ∀ y, f x = .ok y → WrittenWhen (∀ x ∈ xs, p x) (do return y :: (← xs.mapM f)) :=
      fun y _ => writtenWhen_map (y :: ·) others
    rw [List.mapM_cons]
    refine writtenWhen_congr ?_ (writtenWhen_bind (each x List.mem_cons_self) rest)
    rw [List.forall_mem_cons]

end

/-! ### Literals -/

/-- The calendar has the moment at UTC. -/
def ZonedMoment.inCalendar (z : ZonedMoment) : Bool :=
  z.atUtc?.isSome

mutual

/-- The calendar has each moment of the value at UTC. -/
def Value.inCalendar : Value → Bool
  | .zoned (some z) => z.inCalendar
  | .list (some items) _ => Value.allInCalendar items
  | _ => true

def Value.allInCalendar : List Value → Bool
  | [] => true
  | v :: vs => v.inCalendar && Value.allInCalendar vs

end

namespace Flavor

theorem zoned_ok {z : ZonedMoment} {text : String} :
    zoned z = .ok text ↔ ∃ m, z.atUtc? = some m ∧ single m.sqlText = text := by
  unfold zoned
  split
  · next m shown => simp [shown]
  · next gone => simp [gone]

theorem writtenWhen_zoned (z : ZonedMoment) : WrittenWhen (z.inCalendar = true) (zoned z) := by
  unfold zoned ZonedMoment.inCalendar
  split
  · next m shown =>
    rw [shown]
    exact .written rfl _
  · next gone =>
    rw [gone]
    exact .outside Bool.false_ne_true

mutual

/-- A value has a literal just when the calendar has its moments. -/
theorem writtenWhen_literal (f : Flavor) : (v : Value) →
    WrittenWhen (v.inCalendar = true) (f.literal v)
  | .zoned (some z) => by
    rw [literal, Value.inCalendar]
    exact writtenWhen_zoned z
  | .list (some items) _ => by
    rw [literal, Value.inCalendar]
    exact writtenWhen_map f.listing (f.writtenWhen_literals items)
  | .null | .boolean none | .int _ none | .single none | .double none | .decimal none _ _
  | .varchar none | .blob none | .date none | .time none | .timestamp none | .zoned none
  | .uuid none | .list none _ | .unknown none => .written rfl _
  | .boolean (some _) | .int _ (some _) | .single (some _) | .double (some _)
  | .decimal (some _) _ _ | .varchar (some _) | .blob (some _) | .date (some _) | .time (some _)
  | .timestamp (some _) | .uuid (some _) | .unknown (some _) => .written rfl _

theorem writtenWhen_literals (f : Flavor) : (vs : List Value) →
    WrittenWhen (Value.allInCalendar vs = true) (f.literals vs)
  | [] => .written rfl []
  | v :: vs => by
    have rest : ∀ front, f.literal v = .ok front →
        WrittenWhen (Value.allInCalendar vs = true) (do return front :: (← f.literals vs)) :=
      fun front _ => writtenWhen_map (front :: ·) (f.writtenWhen_literals vs)
    rw [literals, Value.allInCalendar, Bool.and_eq_true]
    exact writtenWhen_bind (f.writtenWhen_literal v) rest

end

-- half an hour before the calendar ends, an hour behind UTC
example : Value.inCalendar (.zoned (some
    ⟨⟨⟨9999, 12, 31, by decide⟩, ⟨23, 30, 0, 0, by decide⟩⟩, -3600⟩)) = false := by
  decide

theorem outside_of_unwritten {f : Flavor} {v : Value} {failure : Failure}
    (unwritten : f.literal v = .error failure) :
    failure = .conversion .outsideCalendar ∧ v.inCalendar = false := by
  obtain ⟨same, outside⟩ := failure_of_unwritten (f.writtenWhen_literal v) unwritten
  exact ⟨same, Bool.eq_false_iff.mpr outside⟩

/-- How values are spelt. -/
inductive Spells (f : Flavor) : Value → String → Prop where
  | boolean (b : Bool) : Spells f (.boolean (some b)) (boolean b)
  | int {k : IntKind} (n : Ranged k) : Spells f (.int k (some n)) (toString n.value)
  | single (x : Single) : Spells f (.single (some x)) (f.number .sqlSingle x)
  | double (x : Double) : Spells f (.double (some x)) (f.number .sqlDouble x)
  | decimal (d : Decimal) {precision scale : Nat} :
    Spells f (.decimal (some d) precision scale) d.toText
  | varchar (s : String) : Spells f (.varchar (some s)) (f.string s)
  | unknown (s : String) : Spells f (.unknown (some s)) (f.string s)
  | blob (b : List UInt8) : Spells f (.blob (some b)) (f.blob b)
  | date (d : Date) : Spells f (.date (some d)) (Flavor.single d.sqlText)
  | time (t : TimeOfDay) : Spells f (.time (some t)) (Flavor.single t.sqlText)
  | timestamp (m : Moment) : Spells f (.timestamp (some m)) (Flavor.single m.sqlText)
  | zoned (z : ZonedMoment) (m : Moment) (shown : z.atUtc? = some m) :
    Spells f (.zoned (some z)) (Flavor.single m.sqlText)
  | uuid (u : Uuid) : Spells f (.uuid (some u)) (Flavor.single u.toText)
  | list {items : List Value} {element : Value} {texts : List String}
    (each : f.literals items = .ok texts) : Spells f (.list (some items) element) (f.listing texts)
  | null {v : Value} (missing : v.isNull = true) : Spells f v "NULL"

theorem literal_list {f : Flavor} {items : List Value} {element : Value} {text : String}
    (written : f.literal (.list (some items) element) = .ok text) :
    ∃ texts, f.literals items = .ok texts ∧ f.listing texts = text := by
  rw [literal] at written
  cases each : f.literals items with
  | error failure =>
    rw [each] at written
    cases written
  | ok texts =>
    rw [each] at written
    cases written
    exact ⟨texts, rfl, rfl⟩

theorem literals_cons {f : Flavor} {v : Value} {vs : List Value} {texts : List String}
    (written : f.literals (v :: vs) = .ok texts) :
    ∃ text rest, f.literal v = .ok text ∧ f.literals vs = .ok rest ∧ texts = text :: rest := by
  rw [literals] at written
  obtain ⟨text, first, later⟩ := Outcome.bind_ok.mp written
  obtain ⟨rest, others, answer⟩ := Outcome.bind_ok.mp later
  cases answer
  exact ⟨text, rest, first, others, rfl⟩

theorem spells_of_literal {f : Flavor} {v : Value} {text : String}
    (written : f.literal v = .ok text) : f.Spells v text := by
  cases v with
  | null =>
    cases written
    exact .null rfl
  | zoned z =>
    cases z with
    | none =>
      cases written
      exact .null rfl
    | some z =>
      rw [literal] at written
      obtain ⟨m, shown, rfl⟩ := zoned_ok.mp written
      exact .zoned z m shown
  | list items element =>
    cases items with
    | none =>
      cases written
      exact .null rfl
    | some items =>
      obtain ⟨texts, each, rfl⟩ := literal_list written
      exact .list each
  | boolean value | int _ value | single value | double value | decimal value | varchar value
  | blob value | date value | time value | timestamp value | uuid value | unknown value =>
    cases value with
    | none =>
      cases written
      exact .null rfl
    | some value =>
      cases written
      constructor

/-! ### Pieces with their literals -/

/-- What is written into a hole when a text is written out. -/
def literalOf (f : Flavor) : Hole → Except Failure String
  | .literal v => f.literal v
  | _ => .error .queryNotPrepared

/-- Pieces are written out with the literals in their places. -/
theorem inline_ofPieces (f : Flavor) (ps : List Piece) :
    (Template.ofPieces ps).inline f = Piece.fill f.literalOf ps := by
  rw [Template.inline, Template.fill_ofPieces]
  refine Piece.fill_congr fun h _ => ?_
  cases h <;> rfl

theorem fill_text (f : Flavor) (s : String) : Piece.fill f.literalOf [.text s] = .ok s := by
  rw [Piece.fill, Piece.fill]
  exact congrArg Except.ok String.append_empty

theorem fill_literal (f : Flavor) (v : Value) :
    Piece.fill f.literalOf [.hole (.literal v)] = f.literal v := by
  rw [Piece.fill, Piece.fill, literalOf]
  cases f.literal v with
  | error failure => rfl
  | ok text => exact congrArg Except.ok String.append_empty

end Flavor

/-! ### Literals of statements -/

/-- The calendar has what belongs into the hole, as far as it is known. -/
def Hole.inCalendar : Hole → Bool
  | .literal v => v.inCalendar
  | _ => true

/-- The calendar has what the leaf stands for, as far as it is known. -/
def Leaf.inCalendar : Leaf → Bool
  | .literal v => v.inCalendar
  | .param _ => true

theorem Leaf.inCalendar_holes {leaf : Leaf} :
    (∀ h ∈ leaf.holes, h.inCalendar = true) ↔ leaf.inCalendar = true := by
  cases leaf with
  | literal v => exact List.forall_mem_singleton
  | param p =>
    refine ⟨fun _ => rfl, fun _ h member => ?_⟩
    obtain ⟨index, _, rfl⟩ := List.mem_map.mp member
    rfl

/-- The holes of leaves have what the leaves have. -/
theorem Leaf.inCalendar_flatMap {ls : List Leaf} :
    (∀ h ∈ ls.flatMap Leaf.holes, h.inCalendar = true) ↔ ls.all Leaf.inCalendar = true := by
  simp only [List.mem_flatMap, List.all_eq_true, ← Leaf.inCalendar_holes]
  exact ⟨fun all leaf member h inside => all h ⟨leaf, member, inside⟩,
    fun all h ⟨leaf, member, inside⟩ => all leaf member h inside⟩

/-- The calendar has each literal of the expression. -/
def Expr.inCalendar (e : Expr) : Bool :=
  e.leaves.all Leaf.inCalendar

namespace Piece

variable {filling : Hole → Except Failure String} {ps qs : List Piece}

theorem writtenWhen_fill_text {inside : Prop} (s : String)
    (back : WrittenWhen inside (fill filling ps)) :
    WrittenWhen inside (fill filling (.text s :: ps)) :=
  writtenWhen_map (s ++ ·) back

/-- Pieces are filled when the front of them is and the rest. -/
theorem writtenWhen_fill_append {front back : Prop} (first : WrittenWhen front (fill filling ps))
    (second : WrittenWhen back (fill filling qs)) :
    WrittenWhen (front ∧ back) (fill filling (ps ++ qs)) := by
  rw [fill_append]
  exact writtenWhen_bind first fun s _ => writtenWhen_map (s ++ ·) second

end Piece

end PreparedSql
