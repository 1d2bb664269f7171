import PreparedSql.Query.Basic

/-! Two walks over one expression, or over one query. Whatever relates what the
visitors do at each parameter relates the walks, provided that it does not depend
on the types that are known on the way: a visit is told the lookup at the parameter
by the expression alone, but what it is compared with also by the types. -/
namespace PreparedSql

variable {m n : Type → Type} [Monad m] [Monad n]

/-- The visitors do what is related, however much each of them knows of types. -/
structure Visitor.Related (v : Visitor m) (v' : Visitor n) (R : m Unit → n Unit → Prop) :
    Prop where
  done : R (pure ()) (pure ())
  next : ∀ {a b a' b'}, R a a' → R b b' → R (a >>= fun _ => b) (a' >>= fun _ => b')
  types : ∀ {f f'}, (∀ ts ts', R (f ts) (f' ts')) → R (v.types >>= f) (v'.types >>= f')
  visit : ∀ p {s s' : Site}, s.lookup = s'.lookup → R (v.visit p s) (v'.visit p s')

namespace Site

variable {s s' : Site}

theorem lookup_under (same : s.lookup = s'.lookup) (op : UnaryOperator) :
    (s.under op).lookup = (s'.under op).lookup := by
  cases op with
  | negative => exact same
  | not | isNull | isNotNull => rfl

theorem lookup_ofMember (same : s.lookup = s'.lookup) : s.ofMember.lookup = s'.ofMember.lookup := by
  unfold ofMember
  rw [← same]
  split
  · rfl
  · exact same

end Site

variable {v : Visitor m} {v' : Visitor n} {R : m Unit → n Unit → Prop}

theorem Bound.walk_related (related : v.Related v' R) : (b : Bound) → R (b.walk v) (b.walk v')
  | row _ => related.done
  | param p => related.visit p rfl

namespace Expr

mutual

/-- Walks of related visitors are related, from sites with one lookup. -/
theorem walk_related (related : v.Related v' R) {s s' : Site} (same : s.lookup = s'.lookup) :
    (e : Expr) → R (e.walk v s) (e.walk v' s')
  | .column _ | .reference _ | .literal _ | .truth _ | .raw _ => related.done
  | .param p => related.visit p same
  | .bound b => b.walk_related related
  | .binary op l r => by
    rw [walk, walk]
    split
    · exact related.next (walk_related related rfl l) (walk_related related rfl r)
    · refine related.types fun ts ts' => ?_
      refine related.next (walk_related related ?_ l) (walk_related related ?_ r)
      · rfl
      · rfl
  | .unary op e => walk_related related (Site.lookup_under same op) e
  | .list items => walkItems_related related (Site.lookup_ofMember same) items
  | .cases whens otherwise => by
    rw [walk, walk]
    refine related.types fun ts ts' => ?_
    refine related.next (walkBranches_related related ?_ whens)
      (walkOtherwise_related related ?_ otherwise)
    · rfl
    · rfl
  | .ordered _ e => walk_related related same e

theorem walkItems_related (related : v.Related v' R) {s s' : Site} (same : s.lookup = s'.lookup) :
    (es : List Expr) → R (walkItems v s es) (walkItems v' s' es)
  | [] => related.done
  | e :: rest => related.next (walk_related related same e) (walkItems_related related same rest)

theorem walkBranches_related (related : v.Related v' R) {s s' : Site}
    (same : s.lookup = s'.lookup) :
    (whens : List (Expr × Expr)) → R (walkBranches v s whens) (walkBranches v' s' whens)
  | [] => related.done
  | (condition, e) :: rest => related.next (walk_related related rfl condition)
      (related.next (walk_related related same e) (walkBranches_related related same rest))

theorem walkOtherwise_related (related : v.Related v' R) {s s' : Site}
    (same : s.lookup = s'.lookup) :
    (otherwise : Option Expr) → R (walkOtherwise v s otherwise) (walkOtherwise v' s' otherwise)
  | none => related.done
  | some e => walk_related related same e

end

end Expr

/-- Walks over a query are related as the visits are. -/
theorem Query.walk_related (related : v.Related v' R) (q : Query) : R (q.walk v) (q.walk v') := by
  have entries {α : Type} (es : List (α × Expr)) :
      R (es.forM fun entry => entry.2.walk v {}) (es.forM fun entry => entry.2.walk v' {}) := by
    induction es with
    | nil => exact related.done
    | cons entry rest ih => exact related.next (Expr.walk_related related rfl entry.2) ih
  have condition : R (q.condition.forM (Expr.walk v {})) (q.condition.forM (Expr.walk v' {})) := by
    cases q.condition with
    | none => exact related.done
    | some e => exact Expr.walk_related related rfl e
  have high : R (q.high.forM (Bound.walk v)) (q.high.forM (Bound.walk v')) := by
    cases q.high with
    | none => exact related.done
    | some b => exact b.walk_related related
  exact related.next (entries q.annotations) (related.next condition
    (related.next (entries q.orderBy) (related.next (q.low.walk_related related) high)))

end PreparedSql
