import Mathlib.Order.Bounds.Basic
import PreparedSql.Proofs.CountedCuts

/-! Texts inside messages. A message often reports that something failed over a text, so showing the
text must not fail itself. The search for a cut goes back at most three bytes, whatever characters the
text holds, and ends at the last place in reach where the text can be sliced. That settles what is
shown: the text, or its front up to that place and a mark, without the blanks at the end. -/
namespace PreparedSql

namespace Text

variable {s t u : String} {n : ℕ}

/-- What is left of a text without the blanks at its end, all of them and nothing else. -/
structure Stripped (s t : String) : Prop where
  blank : ∃ blanks : String, s = t ++ blanks ∧ ∀ c ∈ blanks.toList, isBlank c = true
  bare : ∀ c ∈ t.toList.getLast?, isBlank c = false

/-- The places at most `n` bytes from the front where a character begins or the text ends. -/
def boundaries (s : String) (n : ℕ) : Set ℕ :=
  {k | k ≤ n ∧ (⟨k⟩ : String.Pos.Raw).IsValid s}

/-- What a message shows of a text: all of a short one, and of a long one the front up to the last
boundary that is not behind byte 497, with a mark that there was more. -/
inductive Shown (s : String) : String → Prop
  | whole {t : String} (short : s.utf8ByteSize ≤ 497) (stripped : Stripped s t) : Shown s t
  | cut {front back t : String} (long : 497 < s.utf8ByteSize) (joined : s = front ++ back)
      (last : IsGreatest (boundaries s 497) front.utf8ByteSize) (stripped : Stripped front t) :
      Shown s (t ++ "...")

/-! ### The blanks at the end -/

theorem trimEnd_eq_iff : trimEnd s = t ↔ Stripped s t := by
  constructor
  · rintro rfl
    refine ⟨⟨String.ofList (s.toList.reverse.takeWhile isBlank).reverse, ?_, ?_⟩, ?_⟩
    · rw [← String.toList_inj, trimEnd, trimEndChars, String.toList_append, String.toList_ofList,
        String.toList_ofList, ← List.reverse_append, List.takeWhile_append_dropWhile,
        List.reverse_reverse]
    · intro c member
      rw [String.toList_ofList, List.mem_reverse] at member
      exact List.mem_takeWhile_imp member
    · intro c last
      have ends := List.head?_dropWhile_not isBlank s.toList.reverse
      rw [trimEnd, trimEndChars, String.toList_ofList, List.getLast?_reverse] at last
      rw [last] at ends
      exact ends
  · rintro ⟨⟨blanks, rfl, blank⟩, bare⟩
    -- Read from the end, the blanks are a run in front of a character that is none.
    have run : ∀ c ∈ blanks.toList.reverse, isBlank c = true := by
      intro c member
      exact blank c (List.mem_reverse.mp member)
    have kept : (blanks.toList.reverse ++ t.toList.reverse).dropWhile isBlank = t.toList.reverse := by
      refine dropWhile_run run ?_
      rwa [List.head?_reverse]
    rw [trimEnd, trimEndChars, String.toList_append, List.reverse_append, kept, List.reverse_reverse,
      String.ofList_toList]

namespace Stripped

theorem unique (one : Stripped s t) (other : Stripped s u) : t = u :=
  (trimEnd_eq_iff.mpr one).symm.trans (trimEnd_eq_iff.mpr other)

theorem size_le (stripped : Stripped s t) : t.utf8ByteSize ≤ s.utf8ByteSize := by
  obtain ⟨blanks, rfl, -⟩ := stripped.blank
  rw [String.utf8ByteSize_append]
  exact Nat.le_add_right _ _

end Stripped

/-! ### The search for a cut -/

/-- A slice of so many bytes exists where a character begins or the text ends, and only there. -/
theorem splitBytes?_isSome_iff :
    (splitBytes? n s.toList).isSome = true ↔ (⟨n⟩ : String.Pos.Raw).IsValid s := by
  rw [String.Pos.Raw.isValid_iff_exists_append, Option.isSome_iff_exists]
  constructor
  · rintro ⟨⟨front, back⟩, split⟩
    obtain ⟨joined, size⟩ := splitBytes?_append split
    refine ⟨String.ofList front, String.ofList back, ?_, ?_⟩
    · rw [← String.ofList_append, joined, String.ofList_toList]
    · rw [String.rawEndPos, ← byteCount_toList, String.toList_ofList, size]
  · rintro ⟨front, back, rfl, place⟩
    obtain rfl : n = byteCount front.toList := by
      rw [byteCount_toList]
      exact congrArg String.Pos.Raw.byteIdx place
    exact ⟨_, by rw [String.toList_append, splitBytes?_byteCount]⟩

/-- A step back from inside a character passes no boundary. -/
theorem boundaries_back (inside : ¬ (⟨n + 1⟩ : String.Pos.Raw).IsValid s) :
    boundaries s (n + 1) = boundaries s n := by
  ext k
  constructor
  · rintro ⟨near, boundary⟩
    have other : k ≠ n + 1 := by
      rintro rfl
      exact inside boundary
    exact ⟨by omega, boundary⟩
  · rintro ⟨near, boundary⟩
    exact ⟨by omega, boundary⟩

/-- Counting down ends at the last boundary in reach. -/
theorem lastCut_isGreatest (s : String) (n : ℕ) :
    IsGreatest (boundaries s n) (lastCut s.toList n) := by
  induction n with
  | zero => exact ⟨⟨le_rfl, String.Pos.Raw.isValid_zero⟩, fun k near => near.1⟩
  | succ n ih =>
    rw [lastCut]
    split
    · next cut => exact ⟨⟨le_rfl, splitBytes?_isSome_iff.mp cut⟩, fun k near => near.1⟩
    · next inside => rwa [boundaries_back (mt splitBytes?_isSome_iff.mpr inside)]

/-- The bytes show the same boundaries as the characters. The front of the text is one of them, so the
search does not pass it. -/
theorem searchBack?_eq (s : String) (n : ℕ) : searchBack? s n = some (lastCut s.toList n) := by
  induction n with
  | zero => exact if_pos (String.Pos.Raw.isValid_eq_true_iff.mpr String.Pos.Raw.isValid_zero)
  | succ n ih =>
    have same : String.Pos.Raw.isValid s ⟨n + 1⟩ = (splitBytes? (n + 1) s.toList).isSome := by
      rw [Bool.eq_iff_iff, String.Pos.Raw.isValid_eq_true_iff, splitBytes?_isSome_iff]
    rw [searchBack?, lastCut, same, ih, apply_ite some]

/-- The second byte lies inside the accented letter. -/
example : searchBack? "né" 2 = some 1 := by decide

/-- No character takes more than four bytes, so at most three that would fit are given up. -/
theorem le_byteCount_takeBytes (n : ℕ) (cs : List Char) :
    min (byteCount cs) n ≤ byteCount (takeBytes n cs) + 3 := by
  induction cs generalizing n with
  | nil => exact Nat.le_trans (Nat.min_le_left _ _) (Nat.zero_le _)
  | cons c cs ih =>
    have wide := c.utf8Size_le_four
    rw [takeBytes]
    split
    · next fits =>
      have rest := ih (n - c.utf8Size)
      simp only [byteCount]
      omega
    · next beyond => omega

/-! ### What is shown -/

namespace Shown

/-- There is one way to show a text. -/
theorem unique (one : Shown s t) (other : Shown s u) : t = u := by
  cases one with
  | whole short stripped =>
    cases other with
    | whole _ stripped' => exact stripped.unique stripped'
    | cut long => omega
  | @cut front back t long joined last stripped =>
    cases other with
    | whole short => omega
    | @cut front' back' u _ joined' last' stripped' =>
      -- Both fronts reach to the last boundary, and so many bytes settle the characters.
      have texts : front.toList ++ back.toList = front'.toList ++ back'.toList := by
        rw [← String.toList_append, ← String.toList_append, ← joined, joined']
      have size : byteCount front.toList = byteCount front'.toList := by
        rw [byteCount_toList, byteCount_toList]
        exact last.unique last'
      obtain rfl := String.toList_inj.mp (front_of_byteCount texts size)
      rw [stripped.unique stripped']

/-- The mark fits in the three bytes that a cut text leaves free. -/
theorem size_le (shown : Shown s t) : t.utf8ByteSize ≤ 500 := by
  cases shown with
  | whole short stripped =>
    have kept := stripped.size_le
    omega
  | cut long joined last stripped =>
    have kept := stripped.size_le
    have near : _ ≤ 497 := last.1.1
    have mark : "...".utf8ByteSize = 3 := rfl
    rw [String.utf8ByteSize_append]
    omega

end Shown

theorem shown_truncated (s : String) : Shown s (truncated s) := by
  rw [truncated]
  split
  · next short => exact .whole short (trimEnd_eq_iff.mp rfl)
  · next long =>
    obtain ⟨back, listed⟩ := takeBytes_prefix shownBytes s.toList
    have joined : s = String.ofList (takeBytes shownBytes s.toList) ++ String.ofList back := by
      rw [← String.ofList_append, listed, String.ofList_toList]
    have last : IsGreatest (boundaries s shownBytes)
        (String.ofList (takeBytes shownBytes s.toList)).utf8ByteSize := by
      rw [← byteCount_toList, String.toList_ofList, ← lastCut_eq]
      exact lastCut_isGreatest s shownBytes
    refine .cut (Nat.lt_of_not_le long) joined last (trimEnd_eq_iff.mp ?_)
    rw [trimEnd, String.toList_ofList]

/-- Whatever the text, showing it in a message succeeds. The search over its bytes finds a cut, at most
three bytes back; the slice up to the cut exists; and exactly the text, or its front up to the last
boundary within 497 bytes and a mark, is shown without the blanks at its end. -/
theorem messages_cut_between_characters (s : String) :
    searchBack? s shownBytes = some (lastCut s.toList shownBytes) ∧
      min s.utf8ByteSize shownBytes ≤ lastCut s.toList shownBytes + 3 ∧
      truncatedAtCut? s = some (truncated s) ∧
      (∀ t, truncated s = t ↔ Shown s t) ∧
      (truncated s).utf8ByteSize ≤ 500 := by
  refine ⟨searchBack?_eq s shownBytes, ?_, truncatedAtCut?_eq s, fun t => ⟨?_, ?_⟩,
    (shown_truncated s).size_le⟩
  · rw [lastCut_eq, ← byteCount_toList]
    exact le_byteCount_takeBytes shownBytes s.toList
  · rintro rfl
    exact shown_truncated s
  · exact (shown_truncated s).unique

end Text

end PreparedSql
