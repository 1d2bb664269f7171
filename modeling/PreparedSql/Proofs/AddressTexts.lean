import PreparedSql.Net.Ip
import PreparedSql.Proofs.WrittenNumbers

/-! Texts of internet addresses. What is read as an address has four bytes, or eight groups of
sixteen bits, so its text in the canonical form takes 39 characters at most, whichever run of zeros
the form leaves out. -/
namespace PreparedSql

theorem Text.getD_hexValue?_lt (c : Char) : (hexValue? c).getD 0 < 16 := by
  unfold hexValue?
  split
  · next digit =>
    have last : c.toNat ≤ '9'.toNat := digit.2
    have most : '9'.toNat - '0'.toNat < 16 := by decide
    exact Nat.lt_of_le_of_lt (Nat.sub_le_sub_right last _) most
  · split
    · next lower =>
      have last : c.toNat ≤ 'f'.toNat := lower.2
      have most : 'f'.toNat - 'a'.toNat + 10 < 16 := by decide
      exact Nat.lt_of_le_of_lt (Nat.add_le_add_right (Nat.sub_le_sub_right last _) _) most
    · split
      · next upper =>
        have last : c.toNat ≤ 'F'.toNat := upper.2
        have most : 'F'.toNat - 'A'.toNat + 10 < 16 := by decide
        exact Nat.lt_of_le_of_lt (Nat.add_le_add_right (Nat.sub_le_sub_right last _) _) most
      · decide

namespace IpAddress

/-- Four bytes, or eight groups of sixteen bits. -/
def Proper : IpAddress → Prop
  | v4 bytes => bytes.length = 4 ∧ ∀ b ∈ bytes, b < 256
  | v6 groups => groups.length = 8 ∧ ∀ g ∈ groups, g < 65536

/-! ### Reading -/

theorem byte?_lt {cs rest : List Char} {n : Nat} (read : byte? cs = some (n, rest)) : n < 256 := by
  unfold byte? at read
  dsimp only at read
  split at read
  · cases read
  · next plain =>
    cases read
    omega

theorem bytes?_proper {cs rest : List Char} {bytes : List Nat}
    (read : bytes? cs = some (bytes, rest)) : (v4 bytes).Proper := by
  simp only [bytes?, Option.bind_eq_bind, Option.bind_eq_some_iff, Prod.exists, Option.pure_def,
    Option.some.injEq, Prod.mk.injEq] at read
  obtain ⟨a, _, first, _, _, b, _, second, _, _, c, _, third, _, _, d, _, fourth, rfl, _⟩ := read
  refine ⟨rfl, ?_⟩
  simp only [List.forall_mem_cons]
  exact ⟨byte?_lt first, byte?_lt second, byte?_lt third, byte?_lt fourth, by simp⟩

theorem hexNumber_lt (n : Nat) (cs : List Char) :
    cs.foldl (fun n c => 16 * n + (Text.hexValue? c).getD 0) n < (n + 1) * 16 ^ cs.length := by
  induction cs generalizing n with
  | nil => simp
  | cons c cs ih =>
    have digit := Text.getD_hexValue?_lt c
    have grown : 16 * n + (Text.hexValue? c).getD 0 + 1 ≤ (n + 1) * 16 := by omega
    rw [List.foldl_cons, List.length_cons, Nat.pow_succ']
    calc _ < (16 * n + (Text.hexValue? c).getD 0 + 1) * 16 ^ cs.length := ih _
      _ ≤ (n + 1) * 16 * 16 ^ cs.length := Nat.mul_le_mul_right _ grown
      _ = (n + 1) * (16 * 16 ^ cs.length) := Nat.mul_assoc _ _ _

theorem group?_lt {cs rest : List Char} {n : Nat} (read : group? cs = some (n, rest)) :
    n < 65536 := by
  unfold group? at read
  dsimp only at read
  split at read
  · cases read
  · next plain =>
    have short : (cs.takeWhile Text.isHexDigit).length ≤ 4 := by omega
    have number := hexNumber_lt 0 (cs.takeWhile Text.isHexDigit)
    cases read
    calc _ < (0 + 1) * 16 ^ (cs.takeWhile Text.isHexDigit).length := number
      _ = 16 ^ (cs.takeWhile Text.isHexDigit).length := Nat.one_mul _
      _ ≤ 16 ^ 4 := Nat.pow_le_pow_right (by decide) short

/-- No more groups than asked for, and none wider than sixteen bits. -/
theorem readGroups_proper (limit : Nat) (first : Bool) (cs : List Char) :
    (readGroups limit first cs).1.length ≤ limit ∧
      ∀ g ∈ (readGroups limit first cs).1, g < 65536 := by
  fun_induction readGroups limit first cs with
  | case1 | case2 | case4 => simp
  | case3 limit _ _ _ _ _ a b c d rest read =>
    split at read
    · next room =>
      obtain ⟨_, small⟩ := bytes?_proper read
      simp only [List.forall_mem_cons] at small
      obtain ⟨a_small, b_small, c_small, d_small, _⟩ := small
      refine ⟨Nat.succ_le_succ room, ?_⟩
      simp only [List.forall_mem_cons]
      exact ⟨by omega, by omega, by simp⟩
    · cases read
  | case5 limit _ _ _ _ _ g rest read gs mapped left more _ ih =>
    rw [more] at ih
    exact ⟨Nat.succ_le_succ ih.1, List.forall_mem_cons.mpr ⟨group?_lt read, ih.2⟩⟩

theorem v6?_proper {cs : List Char} {groups : List Nat} (read : v6? cs = some groups) :
    (v6 groups).Proper := by
  unfold v6? at read
  obtain ⟨counted, small⟩ := readGroups_proper 8 true cs
  generalize readGroups 8 true cs = front at read counted small
  obtain ⟨front, mapped, rest⟩ := front
  dsimp only at read counted small
  split at read
  · next whole =>
    split at read
    · cases read
      exact ⟨whole, small⟩
    · cases read
  · next part =>
    split at read
    · cases read
    · split at read
      · next rest =>
        obtain ⟨shorter, small'⟩ := readGroups_proper (8 - (front.length + 1)) true rest
        generalize readGroups (8 - (front.length + 1)) true rest = back at read shorter small'
        obtain ⟨back, _, left⟩ := back
        dsimp only at read shorter small'
        split at read
        · cases read
          refine ⟨?_, ?_⟩
          · simp only [List.length_append, List.length_replicate]
            omega
          · intro g member
            simp only [List.mem_append] at member
            rcases member with (early | zero) | late
            · exact small g early
            · rw [List.eq_of_mem_replicate zero]
              decide
            · exact small' g late
        · cases read
      · cases read

theorem ofText?_proper {s : String} {a : IpAddress} (read : ofText? s = some a) : a.Proper := by
  unfold ofText? at read
  split at read
  · next bytes found =>
    cases read
    exact bytes?_proper found
  · obtain ⟨groups, found, rfl⟩ := Option.map_eq_some_iff.mp read
    exact v6?_proper found

/-! ### Writing -/

/-- Pieces of a width with marks between. -/
theorem length_intercalate_le {width : Nat} {pieces : List String} (mark : String)
    (single : mark.length = 1) (narrow : ∀ s ∈ pieces, s.length ≤ width) :
    (String.intercalate mark pieces).length ≤ (width + 1) * pieces.length - 1 := by
  induction pieces with
  | nil => simp
  | cons s pieces ih =>
    obtain ⟨first, others⟩ := List.forall_mem_cons.mp narrow
    cases pieces with
    | nil => simpa using first
    | cons t pieces =>
      have rest := ih others
      rw [String.intercalate_cons_cons, String.length_append, String.length_append, single]
      simp only [List.length_cons, Nat.mul_add, Nat.mul_one] at rest ⊢
      omega

theorem length_v4Text_le {bytes : List Nat} (proper : (v4 bytes).Proper) :
    (v4Text bytes).length ≤ 15 := by
  obtain ⟨four, small⟩ := proper
  have narrow : ∀ s ∈ bytes.map toString, s.length ≤ 3 := by
    intro s member
    obtain ⟨n, inside, rfl⟩ := List.mem_map.mp member
    have below : n < 10 ^ 3 := Nat.lt_trans (small n inside) (by decide)
    rw [Nat.toString_eq_ofList_toDigits, String.length_ofList]
    exact (Nat.length_toDigits_le_iff (by decide) (by decide)).mpr below
  have joined := length_intercalate_le "." (by decide) narrow
  rwa [List.length_map, four] at joined

theorem length_groupsText_le {groups : List Nat} (small : ∀ g ∈ groups, g < 65536) :
    (groupsText groups).length ≤ 5 * groups.length - 1 := by
  have narrow : ∀ s ∈ groups.map Text.hexNat, s.length ≤ 4 := by
    intro s member
    obtain ⟨n, inside, rfl⟩ := List.mem_map.mp member
    rw [Text.hexNat, String.length_ofList]
    exact (Nat.length_toDigits_le_iff (by decide) (by decide)).mpr (small n inside)
  have joined := length_intercalate_le ":" (by decide) narrow
  rwa [List.length_map] at joined

/-- The run that is left out starts among the groups. -/
theorem longestRun_lt {groups : List Nat} (filled : 0 < groups.length) :
    (longestRun groups).1 < groups.length := by
  have among (starts : List Nat) (best : Nat × Nat) (begun : best.1 < groups.length)
      (inside : ∀ i ∈ starts, i < groups.length) :
      (starts.foldl (fun best i =>
        let n := zeroRun (groups.drop i)
        if best.2 < n then (i, n) else best) best).1 < groups.length := by
    induction starts generalizing best with
    | nil => exact begun
    | cons i starts ih =>
      obtain ⟨first, others⟩ := List.forall_mem_cons.mp inside
      rw [List.foldl_cons]
      refine ih _ ?_ others
      dsimp only
      split
      · exact first
      · exact begun
  exact among _ _ filled fun i member => List.mem_range.mp member

/-- Two colons take no more room than the groups that they stand for. -/
theorem length_shortGroupsText_le {groups : List Nat} (proper : (v6 groups).Proper) :
    (shortGroupsText groups).length ≤ 39 := by
  obtain ⟨eight, small⟩ := proper
  have inside := longestRun_lt (Nat.lt_of_lt_of_eq (by decide) eight.symm)
  unfold shortGroupsText
  generalize longestRun groups = run at inside
  obtain ⟨start, length⟩ := run
  dsimp only at inside ⊢
  split
  · next long =>
    have front : (groupsText (groups.take start)).length ≤ _ :=
      length_groupsText_le fun g member => small g (List.mem_of_mem_take member)
    have back : (groupsText (groups.drop (start + length))).length ≤ _ :=
      length_groupsText_le fun g member => small g (List.mem_of_mem_drop member)
    have colons : "::".length = 2 := by decide
    rw [List.length_take] at front
    rw [List.length_drop] at back
    rw [String.length_append, String.length_append, colons]
    omega
  · have whole := length_groupsText_le small
    omega

/-- No text of an address is longer than eight groups of four digits with colons between. -/
theorem length_toText_le {a : IpAddress} (proper : a.Proper) : a.toText.length ≤ 39 := by
  cases a with
  | v4 bytes =>
    have short := length_v4Text_le proper
    exact Nat.le_trans short (by decide)
  | v6 groups =>
    show (v6Text groups).length ≤ 39
    unfold v6Text
    split
    · next a b =>
      obtain ⟨_, small⟩ := proper
      have a_small : a < 65536 := small a (by simp)
      have b_small : b < 65536 := small b (by simp)
      have bytes : (v4 [a / 256, a % 256, b / 256, b % 256]).Proper := by
        refine ⟨rfl, ?_⟩
        simp only [List.forall_mem_cons]
        exact ⟨by omega, by omega, by omega, by omega, by simp⟩
      have short := length_v4Text_le bytes
      have lead : "::ffff:".length = 7 := by decide
      rw [String.length_append, lead]
      omega
    · exact length_shortGroupsText_le proper

end IpAddress

end PreparedSql
