import PreparedSql.Sql.Template

/-! A template keeps its holes as byte offsets. Whatever pieces it was put
together from, every offset lies between two characters, and filling the holes
gives the pieces in order, each hole replaced by what is written into it. -/
namespace PreparedSql

namespace Text

theorem byteCount_toList (s : String) : byteCount s.toList = s.utf8ByteSize := by
  have sizes (cs : List Char) : byteCount cs = (String.ofList cs).utf8ByteSize := by
    induction cs with
    | nil => simp [byteCount]
    | cons c cs ih =>
      rw [String.ofList_cons, String.utf8ByteSize_append, String.utf8ByteSize_singleton,
        byteCount, ih]
  rw [sizes, String.ofList_toList]

/-- Cutting behind a number of characters by their bytes finds the place again. -/
theorem splitBytes?_byteCount (front back : List Char) :
    splitBytes? (byteCount front) (front ++ back) = some (front, back) := by
  induction front with
  | nil => simp [byteCount, splitBytes?]
  | cons c front ih =>
    have positive := c.utf8Size_pos
    obtain ⟨n, size⟩ : ∃ n, byteCount (c :: front) = n + 1 := by
      refine ⟨byteCount (c :: front) - 1, ?_⟩
      simp only [byteCount]
      omega
    have fits : c.utf8Size ≤ n + 1 := by
      simp only [byteCount] at size
      omega
    have rest : n + 1 - c.utf8Size = byteCount front := by
      simp only [byteCount] at size
      omega
    rw [size, List.cons_append, splitBytes?, if_pos fits, rest, ih]
    rfl

/-- Behind a text its bytes lead to the text that follows. -/
theorem splitBytes?_front (start : Nat) (front back : String) :
    splitBytes? (start + front.utf8ByteSize - start) (front ++ back).toList =
      some (front.toList, back.toList) := by
  rw [Nat.add_sub_cancel_left, String.toList_append, ← byteCount_toList]
  exact splitBytes?_byteCount _ _

end Text

namespace Piece

theorem texts_append (ps qs : List Piece) : texts (ps ++ qs) = texts ps ++ texts qs := by
  induction ps with
  | nil => exact String.empty_append.symm
  | cons p ps ih => cases p <;> simp [texts, ih, String.append_assoc]

variable {m : Type → Type} [Monad m]

/-- The pieces in order, each hole replaced by what is written into it. -/
def fill (filling : Hole → m String) : List Piece → m String
  | [] => pure ""
  | text s :: rest => do
    let back ← fill filling rest
    return s ++ back
  | hole h :: rest => do
    let front ← filling h
    let back ← fill filling rest
    return front ++ back

theorem fill_append [LawfulMonad m] (filling : Hole → m String) (ps qs : List Piece) :
    fill filling (ps ++ qs) = do
      let front ← fill filling ps
      let back ← fill filling qs
      return front ++ back := by
  induction ps with
  | nil => simp only [List.nil_append, fill, pure_bind, String.empty_append, bind_pure]
  | cons p ps ih =>
    cases p <;>
      simp only [List.cons_append, fill, ih, bind_assoc, pure_bind, String.append_assoc]

/-- A text is filled when its front is and what stands behind. -/
theorem fill_append_ok {filling : Hole → Except Failure String} {ps qs : List Piece}
    {text : String} :
    fill filling (ps ++ qs) = .ok text ↔
      ∃ front back, fill filling ps = .ok front ∧ fill filling qs = .ok back ∧
        text = front ++ back := by
  rw [fill_append]
  constructor
  · intro filled
    cases front : fill filling ps with
    | error failure =>
      rw [front] at filled
      cases filled
    | ok s =>
      cases back : fill filling qs with
      | error failure =>
        rw [front, back] at filled
        cases filled
      | ok t =>
        rw [front, back] at filled
        cases filled
        exact ⟨s, t, rfl, rfl, rfl⟩
  · rintro ⟨front, back, written, behind, rfl⟩
    rw [written, behind]
    rfl

/-- A text stands in front of what is filled behind it. -/
theorem fill_text_ok {filling : Hole → Except Failure String} {s text : String} {ps : List Piece} :
    fill filling (.text s :: ps) = .ok text ↔
      ∃ back, fill filling ps = .ok back ∧ text = s ++ back := by
  rw [fill]
  cases fill filling ps with
  | error failure =>
    constructor
    · rintro ⟨⟩
    · rintro ⟨_, ⟨⟩, _⟩
  | ok back =>
    constructor
    · rintro ⟨⟩
      exact ⟨back, rfl, rfl⟩
    · rintro ⟨_, ⟨⟩, rfl⟩
      rfl

/-- Pieces between separators are filled one by one. -/
theorem fill_separated [LawfulMonad m] (filling : Hole → m String) (separator : String)
    (pss : List (List Piece)) :
    fill filling (separated separator pss) =
      String.intercalate separator <$> pss.mapM (fill filling) := by
  induction pss with
  | nil =>
    rw [separated, fill, List.mapM_nil, map_pure]
    rfl
  | cons ps rest ih =>
    cases rest with
    | nil => simp [separated]
    | cons qs rest =>
      rw [separated, fill_append, fill, ih]
      · simp only [List.mapM_cons, map_eq_pure_bind, bind_assoc, pure_bind,
          String.intercalate_cons_cons, String.append_assoc]
      · nofun

theorem fill_congr {filling other : Hole → m String} {ps : List Piece}
    (same : ∀ h, .hole h ∈ ps → filling h = other h) : fill filling ps = fill other ps := by
  induction ps with
  | nil => rfl
  | cons p ps ih =>
    have rest := ih fun h member => same h (List.mem_cons_of_mem _ member)
    cases p with
    | text s => rw [fill, fill, rest]
    | hole h => rw [fill, fill, rest, same h List.mem_cons_self]

/-- What was filled had something for every hole. -/
theorem fill_ok {filling : Hole → Except Failure String} {ps : List Piece} {text : String}
    (filled : fill filling ps = .ok text) {h : Hole} (member : .hole h ∈ ps) :
    ∃ s, filling h = .ok s := by
  induction ps generalizing text with
  | nil => cases member
  | cons p ps ih =>
    cases p with
    | text s =>
      cases back : fill filling ps with
      | error failure =>
        rw [fill, back] at filled
        cases filled
      | ok rest =>
        rcases List.mem_cons.mp member with first | later
        · cases first
        · exact ih back later
    | hole h' =>
      cases front : filling h' with
      | error failure =>
        rw [fill, front] at filled
        cases filled
      | ok s =>
        cases back : fill filling ps with
        | error failure =>
          rw [fill, front, back] at filled
          cases filled
        | ok rest =>
          rcases List.mem_cons.mp member with first | later
          · cases first
            exact ⟨s, front⟩
          · exact ih back later

end Piece

namespace Template

variable {m : Type → Type} [Monad m] [LawfulMonad m] [MonadExceptOf Failure m]

/-- The text in front of the next hole may come from several pieces; `front`
is what of it has been passed. -/
theorem fillFrom_pieces (whole : String) (filling : Hole → m String) (ps : List Piece)
    (start : Nat) (front : String) :
    fillFrom whole filling start (front ++ Piece.texts ps).toList
        (Piece.holesFrom (start + front.utf8ByteSize) ps) =
      (front ++ ·) <$> Piece.fill filling ps := by
  induction ps generalizing start front with
  | nil => simp [Piece.texts, Piece.holesFrom, fillFrom, Piece.fill]
  | cons p ps ih =>
    cases p with
    | text s =>
      have later := ih start (front ++ s)
      rw [String.utf8ByteSize_append, ← Nat.add_assoc, String.append_assoc] at later
      simp only [Piece.texts, Piece.holesFrom, later, Piece.fill, map_eq_pure_bind, bind_assoc,
        pure_bind, String.append_assoc]
    | hole h =>
      have cut := Text.splitBytes?_front start front (Piece.texts ps)
      have later := ih (start + front.utf8ByteSize) ""
      simp only [String.utf8ByteSize_empty, Nat.add_zero, String.empty_append, id_map'] at later
      simp only [Piece.texts, Piece.holesFrom, fillFrom, Nat.le_add_right, ↓reduceIte, cut, later,
        Piece.fill, String.ofList_toList, map_bind, map_pure, String.append_assoc]

/-- Filling a template never misses a hole: it fills the pieces in order. -/
theorem fill_ofPieces (filling : Hole → m String) (ps : List Piece) :
    (ofPieces ps).fill filling = Piece.fill filling ps := by
  have filled := fillFrom_pieces (Piece.texts ps) filling ps 0 ""
  simp only [String.utf8ByteSize_empty, Nat.zero_add, String.empty_append, id_map'] at filled
  exact filled

end Template

end PreparedSql
