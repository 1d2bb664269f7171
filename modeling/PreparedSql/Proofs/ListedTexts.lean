/-! Texts that are listed with a comma and a space between them, and numbers
among them. As long as no text holds what stands between them, the list says
which texts it lists. -/
namespace PreparedSql.Text

/-- Numbers are written with digits. -/
theorem isDigit_of_mem_toString {c : Char} {n : Nat} (member : c ∈ (toString n).toList) :
    c.isDigit := by
  rw [Nat.toString_eq_ofList_toDigits, String.toList_ofList] at member
  exact Nat.isDigit_of_mem_toDigits (by decide) (by decide) member

/-- No comma in the text has a space behind it. -/
def Unbroken (cs : List Char) : Prop :=
  ¬ [',', ' '].IsInfix cs

private theorem unbroken_tail {c : Char} {cs : List Char} (unbroken : Unbroken (c :: cs)) :
    Unbroken cs :=
  fun broken => unbroken (broken.trans (List.suffix_cons c cs).isInfix)

theorem unbroken_of_absent {c : Char} {cs : List Char} (separating : c ∈ [',', ' '])
    (absent : c ∉ cs) : Unbroken cs :=
  fun broken => absent (broken.subset separating)

/-- A comma and a space after unbroken text are the first ones. -/
private theorem unbroken_append {xs ys rest rest' : List Char} (unbroken : Unbroken xs)
    (unbroken' : Unbroken ys) (same : xs ++ ',' :: ' ' :: rest = ys ++ ',' :: ' ' :: rest') :
    xs = ys ∧ rest = rest' := by
  induction xs generalizing ys with
  | nil =>
    match ys with
    | [] => simpa using same
    | [y] => simp at same
    | y :: z :: ys =>
      simp only [List.nil_append, List.cons_append, List.cons.injEq] at same
      obtain ⟨rfl, rfl, _⟩ := same
      exact absurd ⟨[], ys, rfl⟩ unbroken'
  | cons x xs ih =>
    match ys with
    | [] =>
      match xs with
      | [] => simp at same
      | z :: xs =>
        simp only [List.nil_append, List.cons_append, List.cons.injEq] at same
        obtain ⟨rfl, rfl, _⟩ := same
        exact absurd ⟨[], xs, rfl⟩ unbroken
    | y :: ys =>
      simp only [List.cons_append, List.cons.injEq] at same
      obtain ⟨rfl, same⟩ := same
      obtain ⟨rfl, rfl⟩ := ih (unbroken_tail unbroken) (unbroken_tail unbroken') same
      exact ⟨rfl, rfl⟩

private theorem broken_append (xs rest : List Char) : ¬ Unbroken (xs ++ ',' :: ' ' :: rest) :=
  fun unbroken => unbroken ⟨xs, rest, by simp⟩

/-- Texts that are listed can be told apart. -/
theorem intercalate_injective {x y : String} {xs ys : List String}
    (unbroken : ∀ s ∈ x :: xs, Unbroken s.toList) (unbroken' : ∀ s ∈ y :: ys, Unbroken s.toList)
    (same : String.intercalate ", " (x :: xs) = String.intercalate ", " (y :: ys)) :
    x :: xs = y :: ys := by
  have first := unbroken x List.mem_cons_self
  have first' := unbroken' y List.mem_cons_self
  have listed (s t : String) (rest : List String) :
      (String.intercalate ", " (s :: t :: rest)).toList =
        s.toList ++ ',' :: ' ' :: (String.intercalate ", " (t :: rest)).toList := by
    rw [String.intercalate_cons_cons]
    simp
  induction xs generalizing x y ys with
  | nil =>
    cases ys with
    | nil => simpa using same
    | cons z ys =>
      rw [← String.toList_inj, String.intercalate_singleton, listed] at same
      rw [same] at first
      exact absurd first (broken_append _ _)
  | cons z xs ih =>
    cases ys with
    | nil =>
      rw [← String.toList_inj, String.intercalate_singleton, listed] at same
      rw [← same] at first'
      exact absurd first' (broken_append _ _)
    | cons w ys =>
      rw [← String.toList_inj, listed, listed] at same
      obtain ⟨head, tail⟩ := unbroken_append first first' same
      have rest := ih (fun s member => unbroken s (List.mem_cons_of_mem _ member))
        (fun s member => unbroken' s (List.mem_cons_of_mem _ member)) (String.toList_inj.mp tail)
        (unbroken z (List.mem_cons_of_mem _ List.mem_cons_self))
        (unbroken' w (List.mem_cons_of_mem _ List.mem_cons_self))
      rw [String.toList_inj.mp head, rest]

end PreparedSql.Text
