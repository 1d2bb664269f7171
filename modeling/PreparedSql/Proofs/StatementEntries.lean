import PreparedSql.Proofs.CompiledParameters
import PreparedSql.Proofs.HoleSpacing

/-! What a statement records beside its text fits the text. There is one entry
for every literal and every element of a parameter that is written, and one for
the number of rows of a window with a parameter, in the order of the text. The
entries cut the text between characters, each behind the one in front of it, and
filling them puts every replacement into the place of its own leaf. -/
namespace PreparedSql

open Piece

namespace Piece

/-! ### Texts between holes -/

/-- The text in front of the first hole, and those behind every hole. -/
def gaps : List Piece → String × List String
  | [] => ("", [])
  | text s :: rest => (s ++ (gaps rest).1, (gaps rest).2)
  | hole _ :: rest => ("", (gaps rest).1 :: (gaps rest).2)

theorem join_gaps (ps : List Piece) : String.join ((gaps ps).1 :: (gaps ps).2) = texts ps := by
  induction ps with
  | nil => rfl
  | cons p ps ih =>
    rw [String.join_cons] at ih
    cases p with
    | text s => rw [gaps, texts, String.join_cons, String.append_assoc, ih]
    | hole h => rw [gaps, texts, String.join_cons, String.join_cons, String.empty_append, ih]

theorem length_gaps (ps : List Piece) : (gaps ps).2.length = (holes ps).length := by
  induction ps with
  | nil => rfl
  | cons p ps ih =>
    cases p with
    | text s => exact ih
    | hole h => rw [gaps, holes_hole, List.length_cons, List.length_cons, ih]

/-- A hole lies behind the texts in front of it. -/
theorem offset_gaps {ps : List Piece} {start k offset : Nat}
    (found : (offsetsFrom start ps)[k]? = some offset) :
    offset = start + (String.join ((gaps ps).1 :: (gaps ps).2.take k)).utf8ByteSize := by
  induction ps generalizing start k with
  | nil => cases found
  | cons p ps ih =>
    cases p with
    | text s =>
      have behind := ih found
      rw [String.join_cons, String.utf8ByteSize_append] at behind
      simp only [gaps, String.join_cons, String.utf8ByteSize_append]
      omega
    | hole h =>
      cases k with
      | zero =>
        cases found
        simp [gaps]
      | succ k =>
        have behind := ih (k := k) found
        rw [gaps, List.take_succ_cons, String.join_cons, String.empty_append, behind]

variable {m : Type → Type} [Monad m] [LawfulMonad m]

/-- Filled pieces are the texts between the holes, with what is written into the
holes between them. -/
theorem fill_eq_zip (filling : Hole → m String) (ps : List Piece) :
    fill filling ps =
      (fun rs => String.join ((gaps ps).1 :: List.zipWith (· ++ ·) rs (gaps ps).2)) <$>
        (holes ps).mapM filling := by
  induction ps with
  | nil => simp [fill, gaps]
  | cons p ps ih =>
    cases p with
    | text s => simp [fill, gaps, ih, String.append_assoc]
    | hole h => simp [fill, gaps, ih, String.append_assoc]

/-- Pieces are filled unless something cannot be written into a hole. -/
theorem fill_error {filling : Hole → Except Failure String} {ps : List Piece} {failure : Failure}
    (failed : fill filling ps = .error failure) : ∃ h ∈ holes ps, filling h = .error failure := by
  rw [fill_eq_zip] at failed
  cases mapped : (holes ps).mapM filling with
  | ok rs =>
    rw [mapped] at failed
    cases failed
  | error other =>
    rw [mapped] at failed
    cases failed
    exact Outcome.mapM_error mapped

end Piece

namespace Template

/-- The template fits what was written: these pieces, with these entries. -/
structure Fits (t : Template) (ps : List Piece) (hs : List Hole) : Prop where
  /-- Nothing but the holes is kept out of the text. -/
  text : t.text = texts ps
  /-- No entry is lost, added or moved. -/
  entries : t.holes.map (·.2) = hs
  increasing : (t.holes.map (·.1)).Pairwise (· < ·)
  boundaries : ∀ offset ∈ t.holes.map (·.1), String.Pos.Raw.IsValid t.text ⟨offset⟩
  /-- The offsets cut the text into gaps, and to fill it is to put the replacements
  between the gaps. -/
  spliced : ∃ front gaps, t.text = String.join (front :: gaps) ∧ gaps.length = t.holes.length ∧
    (∀ (k : Nat) (offset : Nat) (h : Hole), t.holes[k]? = some (offset, h) →
      offset = (String.join (front :: gaps.take k)).utf8ByteSize) ∧
    ∀ {m : Type → Type} [Monad m] [LawfulMonad m] [MonadExceptOf Failure m]
      (filling : Hole → m String), t.fill filling =
        (fun rs => String.join (front :: List.zipWith (· ++ ·) rs gaps)) <$> hs.mapM filling
  /-- A replacement stands where its hole was written. -/
  placed : ∀ {m : Type → Type} [Monad m] [LawfulMonad m] [MonadExceptOf Failure m]
    (filling : Hole → m String), t.fill filling = Piece.fill filling ps
  /-- Filling fails over nothing but a replacement. -/
  failures : ∀ (filling : Hole → Except Failure String) (failure : Failure),
    t.fill filling = .error failure → ∃ h ∈ hs, filling h = .error failure

/-- Pieces whose holes do not touch make a template that fits them. -/
theorem fits_ofPieces {ps : List Piece} (spaced : Spaced ps) :
    Fits (ofPieces ps) ps (Piece.holes ps) := by
  have entries : (ofPieces ps).holes.map (·.2) = Piece.holes ps := map_holesFrom 0 ps
  have cut : (gaps ps).2.length = (ofPieces ps).holes.length := by
    rw [length_gaps, ← entries, List.length_map]
  refine ⟨rfl, entries, offsets_increase spaced 0, ?_, ?_, fun f => fill_ofPieces f ps, ?_⟩
  · intro offset member
    have valid := offset_isValid "" ps member
    rwa [String.empty_append] at valid
  · refine ⟨(gaps ps).1, (gaps ps).2, (join_gaps ps).symm, cut, fun k offset h found => ?_, ?_⟩
    · have here : (offsetsFrom 0 ps)[k]? = some offset := by
        rw [offsetsFrom, List.getElem?_map]
        exact congrArg (Option.map Prod.fst) found
      rw [offset_gaps here, Nat.zero_add]
    · intro m _ _ _ filling
      rw [fill_ofPieces, fill_eq_zip]
  · intro filling failure failed
    rw [fill_ofPieces] at failed
    exact fill_error failed

end Template

/-! ### Entries of a statement -/

/-- What the window of a slice keeps out of the text. -/
def Bound.entries (low : Bound) : Option Bound → List Hole
  | none => low.leaves.flatMap Leaf.holes
  | some high =>
    if low.isZero then high.leaves.flatMap Leaf.holes
    else if low.isParam || high.isParam then .span low high :: low.leaves.flatMap Leaf.holes
    else []

/-- What a selection keeps out of its text. -/
def Selection.entries (s : Selection) : List Hole :=
  s.leaves.flatMap Leaf.holes ++ s.low.entries s.high

namespace Flavor

variable (f : Flavor)

/-- The holes of a selection are those of its leaves and of its window. -/
theorem holes_select (s : Selection) : holes (f.select s) = s.entries := by
  rw [f.select_eq, holes_append, f.holes_front, holes_window]
  rfl

theorem holes_update (t : TableRef) (assignments : List (Column × Expr)) (condition : Option Expr) :
    holes (f.update t assignments condition) =
      (assignments.flatMap (·.2.leaves) ++ condition.toList.flatMap Expr.leaves).flatMap
        Leaf.holes := by
  have assigned : (assignments.map f.assignment).flatMap holes =
      (assignments.flatMap (·.2.leaves)).flatMap Leaf.holes := by
    rw [List.flatMap_map]
    exact holes_written _ Prod.snd assignments
  rw [update, holes_text, holes_append, holes_separated, assigned, holes_whereClause,
    List.flatMap_append]

theorem holes_delete (t : TableRef) (condition : Option Expr) :
    holes (f.delete t condition) = (condition.toList.flatMap Expr.leaves).flatMap Leaf.holes := by
  rw [delete, holes_text, holes_whereClause]

end Flavor

namespace Query

/-- A selection of the rows has entries for all the leaves of the query: its
annotations, its condition, its orderings, and its window. -/
def selectEntries (q : Query) : List Hole :=
  q.frontLeaves.flatMap Leaf.holes ++ q.low.entries q.high

/-- Counting writes the annotations only to tell duplicates, and the orderings only
where a window or duplicates make it count a selection inside. -/
def countEntries (q : Query) : List Hole :=
  ((if q.distinct then q.annotations.flatMap (·.2.leaves) else []) ++
    (q.condition.toList.flatMap Expr.leaves ++
      (if q.isSliced || q.distinct then q.orderBy.flatMap (·.2.leaves) else []))).flatMap Leaf.holes
    ++ q.low.entries q.high

/-- A change writes the new values, then the condition. -/
def updateEntries (q : Query) (assignments : List (Column × Expr)) : List Hole :=
  (assignments.flatMap (·.2.leaves) ++ q.condition.toList.flatMap Expr.leaves).flatMap Leaf.holes

def deleteEntries (q : Query) : List Hole :=
  (q.condition.toList.flatMap Expr.leaves).flatMap Leaf.holes

private theorem ordered_leaves (q : Query) (columns : List (Expr × Option String)) :
    (q.selection columns).orderBy.flatMap Expr.leaves = q.orderBy.flatMap (·.2.leaves) :=
  List.flatMap_map ..

theorem entries_selects (q : Query) : q.selects.entries = q.selectEntries := by
  rw [Selection.entries, leaves_selects]
  rfl

theorem holes_count (q : Query) (f : Flavor) :
    holes (f.selectCount (q.selection
      (if q.distinct then q.projection else [(.column q.model.primaryKey, none)]))) =
      q.countEntries := by
  have sliced (columns : List (Expr × Option String)) :
      (q.selection columns).isSliced = q.isSliced := rfl
  have duplicates (columns : List (Expr × Option String)) :
      (q.selection columns).distinct = q.distinct := rfl
  rw [Flavor.selectCount, sliced, duplicates, countEntries]
  cases inside : q.isSliced || q.distinct with
  | false =>
    obtain ⟨_, plain⟩ := Bool.or_eq_false_iff.mp inside
    rw [if_neg (by simp), Flavor.holes_select]
    simp [Selection.entries, Selection.leaves, selection, Expr.leaves, plain]
  | true =>
    rw [if_pos rfl, if_pos rfl, holes_text, holes_append, Flavor.holes_select, holes_text,
      holes_nil, List.append_nil, Selection.entries, Selection.leaves, ordered_leaves]
    cases q.distinct with
    | false =>
      rw [if_neg (by simp), if_neg (by simp)]
      rfl
    | true =>
      rw [if_pos rfl, if_pos rfl]
      show (q.projection.flatMap (·.1.leaves) ++ _).flatMap Leaf.holes ++ _ = _
      rw [leaves_projection]
      rfl

/-- Every statement of a query fits what it was written from. A query with a
window changes and deletes nothing, and says so. -/
theorem statements_fit (q : Query) (f : Flavor) (assignments : List (Column × Expr)) :
    (q.selectTemplate f).Fits (f.select q.selects) q.selectEntries ∧
    (q.countTemplate f).Fits (f.selectCount (q.selection
      (if q.distinct then q.projection else [(.column q.model.primaryKey, none)])))
      q.countEntries ∧
    (match q.updateTemplate f assignments with
      | .ok t => q.isSliced = false ∧
        t.Fits (f.update q.table assignments q.condition) (q.updateEntries assignments)
      | .error failure => q.isSliced = true ∧ failure = .updateAfterSlice) ∧
    (match q.deleteTemplate f with
      | .ok t => q.isSliced = false ∧ t.Fits (f.delete q.table q.condition) q.deleteEntries
      | .error failure => q.isSliced = true ∧ failure = .deleteAfterSlice) := by
  refine ⟨?_, ?_, ?_, ?_⟩
  · have fits := Template.fits_ofPieces (f.spaced_select q.selects)
    rwa [Flavor.holes_select, entries_selects] at fits
  · have fits := Template.fits_ofPieces (f.spaced_selectCount (q.selection
      (if q.distinct then q.projection else [(.column q.model.primaryKey, none)])))
    rwa [holes_count] at fits
  · have fits := Template.fits_ofPieces (f.spaced_update q.table assignments q.condition)
    rw [Flavor.holes_update] at fits
    unfold updateTemplate
    cases sliced : q.isSliced with
    | true => exact ⟨rfl, rfl⟩
    | false => exact ⟨rfl, fits⟩
  · have fits := Template.fits_ofPieces (f.spaced_delete q.table q.condition)
    rw [Flavor.holes_delete] at fits
    unfold deleteTemplate
    cases sliced : q.isSliced with
    | true => exact ⟨rfl, rfl⟩
    | false => exact ⟨rfl, fits⟩

end Query

end PreparedSql
