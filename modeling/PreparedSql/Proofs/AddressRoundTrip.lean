import PreparedSql.Proofs.AddressTexts

/-! An address is read back from its canonical text. Bytes and groups end where a mark follows that
no digit is, so the reader stops at each of them where the writer did; two colons leave out a run of
zeros, and the reader puts in as many as are missing. -/
namespace PreparedSql

namespace Text

/-! ### Hexadecimal numbers -/

private theorem hexValue?_digitChar {d : Nat} (small : d < 16) :
    hexValue? (Nat.digitChar d) = some d := by
  have each : ∀ d < 16, hexValue? (Nat.digitChar d) = some d := by decide
  exact each d small

theorem isHexDigit_of_mem_hexNat {n : Nat} {c : Char} (member : c ∈ Nat.toDigits 16 n) :
    isHexDigit c = true := by
  induction n using Nat.strongRecOn with
  | ind n ih =>
    rw [Nat.toDigits_eq_if (by decide)] at member
    split at member
    · next small =>
      rw [List.mem_singleton.mp member, isHexDigit, hexValue?_digitChar small]
      rfl
    · next large =>
      rcases List.mem_append.mp member with front | last
      · exact ih (n / 16) (by omega) front
      · rw [List.mem_singleton.mp last, isHexDigit, hexValue?_digitChar (Nat.mod_lt n (by decide))]
        rfl

/-- The number that hexadecimal digits stand for. -/
theorem hexNumber_toDigits (n : Nat) :
    (Nat.toDigits 16 n).foldl (fun n c => 16 * n + (hexValue? c).getD 0) 0 = n := by
  induction n using Nat.strongRecOn with
  | ind n ih =>
    rw [Nat.toDigits_eq_if (by decide)]
    split
    · next small =>
      rw [List.foldl_cons, List.foldl_nil, hexValue?_digitChar small]
      simp
    · next large =>
      rw [List.foldl_append, ih (n / 16) (by omega), List.foldl_cons, List.foldl_nil,
        hexValue?_digitChar (Nat.mod_lt n (by decide)), Option.getD_some]
      exact Nat.div_add_mod n 16

end Text

namespace IpAddress

open Text

variable {cs rest : List Char} {gs groups : List Nat}

/-! ### Bytes -/

/-- A byte is read up to whatever is no digit. -/
theorem byte?_toDigits {n : Nat} (small : n < 256) (ends : ∀ c ∈ rest.head?, c.isDigit = false) :
    byte? (Nat.toDigits 10 n ++ rest) = some (n, rest) := by
  have plain : ∀ n < 256, ¬((Nat.toDigits 10 n).isEmpty ∨ 3 < (Nat.toDigits 10 n).length ∨
      ((Nat.toDigits 10 n).head? = some '0' ∧ 1 < (Nat.toDigits 10 n).length) ∨ 255 < n) := by
    decide +kernel
  rw [byte?, takeWhile_run (digits_toDigits n) ends, digitsValue_toDigits, if_neg (plain n small),
    List.drop_left]

/-- Four bytes are read up to whatever is no digit. -/
theorem bytes?_v4Text {bytes : List Nat} (proper : (v4 bytes).Proper)
    (ends : ∀ c ∈ rest.head?, c.isDigit = false) :
    bytes? ((v4Text bytes).toList ++ rest) = some (bytes, rest) := by
  obtain ⟨four, small⟩ := proper
  match bytes, four with
  | [a, b, c, d], _ =>
    simp only [List.forall_mem_cons] at small
    obtain ⟨a_small, b_small, c_small, d_small, _⟩ := small
    have point (back : List Char) : ∀ x ∈ ('.' :: back).head?, x.isDigit = false := by
      rintro _ ⟨⟩
      decide
    have joined : (v4Text [a, b, c, d]).toList ++ rest = Nat.toDigits 10 a ++
        '.' :: (Nat.toDigits 10 b ++ '.' :: (Nat.toDigits 10 c ++
          '.' :: (Nat.toDigits 10 d ++ rest))) := by
      simp [v4Text, String.intercalate_cons_cons]
    rw [joined]
    simp [bytes?, bytes?.dropMark?, byte?_toDigits a_small (point _), byte?_toDigits b_small (point _),
      byte?_toDigits c_small (point _), byte?_toDigits d_small ends]

/-- Four bytes with nothing behind them are read to their end. -/
theorem bytes?_alone {bytes : List Nat} (proper : (v4 bytes).Proper) :
    bytes? (v4Text bytes).toList = some (bytes, []) := by
  have read : bytes? ((v4Text bytes).toList ++ []) = some (bytes, []) :=
    bytes?_v4Text proper (by simp)
  rwa [List.append_nil] at read

/-- Four bytes have points between them. -/
theorem bytes?_none (pointless : '.' ∉ cs) : bytes? cs = none := by
  have left {front back : List Char} {n : Nat} (read : byte? front = some (n, back)) :
      ∀ c ∈ back, c ∈ front := by
    unfold byte? at read
    dsimp only at read
    split at read
    · cases read
    · cases read
      exact fun c member => List.mem_of_mem_drop member
  cases first : byte? cs with
  | none => simp [bytes?, first]
  | some read =>
    obtain ⟨n, back⟩ := read
    have marked : back.head? ≠ some '.' := by
      intro point
      exact pointless (left first '.' (List.mem_of_head? point))
    simp [bytes?, first, bytes?.dropMark?, marked]

/-! ### Groups -/

/-- A group is read up to whatever is no hexadecimal digit. -/
theorem group?_hexNat {g : Nat} (small : g < 65536) (ends : ∀ c ∈ rest.head?, isHexDigit c = false) :
    group? ((hexNat g).toList ++ rest) = some (g, rest) := by
  have run := takeWhile_run (fun c member => isHexDigit_of_mem_hexNat (n := g) member) ends
  have short : (Nat.toDigits 16 g).length ≤ 4 :=
    (Nat.length_toDigits_le_iff (by decide) (by decide)).mpr small
  have filled : (Nat.toDigits 16 g).isEmpty = false := by
    rw [List.isEmpty_eq_false_iff]
    exact Nat.toDigits_ne_nil
  rw [group?, hexNat, String.toList_ofList, run, hexNumber_toDigits,
    if_neg (by simp [filled, short]), List.drop_left]

/-- Groups with a colon in front of each. -/
def furtherGroups (gs : List Nat) : List Char :=
  gs.flatMap fun g => ':' :: (hexNat g).toList

theorem toList_groupsText_cons (g : Nat) (gs : List Nat) :
    (groupsText (g :: gs)).toList = (hexNat g).toList ++ furtherGroups gs := by
  induction gs generalizing g with
  | nil => simp [groupsText, furtherGroups]
  | cons g' gs ih =>
    have rest := ih g'
    simp only [groupsText, List.map_cons] at rest
    simp only [groupsText, List.map_cons, String.intercalate_cons_cons, String.toList_append, rest,
      furtherGroups, List.flatMap_cons]
    simp

/-- Behind groups stands nothing, or two colons. -/
def EndsGroups (rest : List Char) : Prop :=
  rest = [] ∨ ∃ back, rest = ':' :: ':' :: back

theorem not_hex_further (gs : List Nat) (ends : EndsGroups rest) :
    ∀ c ∈ (furtherGroups gs ++ rest).head?, isHexDigit c = false := by
  cases gs with
  | cons g gs =>
    rintro _ ⟨⟩
    decide
  | nil =>
    rcases ends with rfl | ⟨back, rfl⟩
    · rintro _ ⟨⟩
    · rintro _ ⟨⟩
      decide

/-- No group stands where groups have ended. -/
theorem readGroups_ended (limit : Nat) (first : Bool) (ends : EndsGroups rest)
    (pointless : '.' ∉ rest) : readGroups limit first rest = ([], false, rest) := by
  cases limit with
  | zero => rw [readGroups]
  | succ limit =>
    have noDigit {cs : List Char} (empty : cs.takeWhile isHexDigit = []) : group? cs = none := by
      simp [group?, empty]
    rcases ends with rfl | ⟨back, rfl⟩
    · cases first with
      | true => simp [readGroups, bytes?_none pointless, noDigit List.takeWhile_nil]
      | false => simp [readGroups]
    · have colon : isHexDigit ':' = false := by decide
      cases first with
      | true => simp [readGroups, bytes?_none pointless, noDigit, colon]
      | false =>
        have pointless' : '.' ∉ ':' :: back := fun member =>
          pointless (List.mem_cons_of_mem _ member)
        simp [readGroups, bytes?_none pointless', noDigit, colon]

theorem readGroups_further {limit : Nat} (small : ∀ g ∈ gs, g < 65536) (room : gs.length ≤ limit)
    (ends : EndsGroups rest) (pointless : '.' ∉ furtherGroups gs ++ rest) :
    readGroups limit false (furtherGroups gs ++ rest) = (gs, false, rest) := by
  induction gs generalizing limit with
  | nil => exact readGroups_ended limit false ends pointless
  | cons g gs ih =>
    cases limit with
    | zero => cases room
    | succ limit =>
      obtain ⟨first, others⟩ := List.forall_mem_cons.mp small
      have opened : furtherGroups (g :: gs) ++ rest =
          ':' :: ((hexNat g).toList ++ (furtherGroups gs ++ rest)) := by
        simp [furtherGroups]
      rw [opened] at pointless ⊢
      have body : '.' ∉ (hexNat g).toList ++ (furtherGroups gs ++ rest) := fun member =>
        pointless (List.mem_cons_of_mem _ member)
      have later := ih others (Nat.le_of_succ_le_succ room) fun member =>
        body (List.mem_append_right _ member)
      simp [readGroups, bytes?_none body, group?_hexNat first (not_hex_further gs ends), later]

/-- Groups are read up to where they end. -/
theorem readGroups_groupsText {limit : Nat} (small : ∀ g ∈ gs, g < 65536) (room : gs.length ≤ limit)
    (ends : EndsGroups rest) (pointless : '.' ∉ (groupsText gs).toList ++ rest) :
    readGroups limit true ((groupsText gs).toList ++ rest) = (gs, false, rest) := by
  cases gs with
  | nil => exact readGroups_ended limit true ends pointless
  | cons g gs =>
    cases limit with
    | zero => cases room
    | succ limit =>
      obtain ⟨first, others⟩ := List.forall_mem_cons.mp small
      rw [toList_groupsText_cons, List.append_assoc] at pointless ⊢
      have later := readGroups_further others (Nat.le_of_succ_le_succ room) ends fun member =>
        pointless (List.mem_append_right _ member)
      simp [readGroups, bytes?_none pointless, group?_hexNat first (not_hex_further gs ends), later]

theorem not_point_groupsText (gs : List Nat) : '.' ∉ (groupsText gs).toList := by
  have point : isHexDigit '.' = false := by decide
  have digits (g : Nat) : '.' ∉ (hexNat g).toList := by
    intro member
    rw [hexNat, String.toList_ofList] at member
    rw [isHexDigit_of_mem_hexNat member] at point
    cases point
  cases gs with
  | nil => simp [groupsText]
  | cons g gs =>
    rw [toList_groupsText_cons]
    simp [furtherGroups, digits]

/-- Groups with nothing behind them are read to their end. -/
theorem readGroups_alone {limit : Nat} (small : ∀ g ∈ gs, g < 65536) (room : gs.length ≤ limit) :
    readGroups limit true (groupsText gs).toList = (gs, false, []) := by
  have pointless : '.' ∉ (groupsText gs).toList ++ [] := by
    rw [List.append_nil]
    exact not_point_groupsText gs
  have read := readGroups_groupsText small room (.inl rfl) pointless
  rwa [List.append_nil] at read

/-! ### The run that is left out -/

/-- What is left out are zeros. -/
theorem longestRun_zeros (groups : List Nat) :
    (longestRun groups).2 ≤ zeroRun (groups.drop (longestRun groups).1) := by
  have among (starts : List Nat) (best : Nat × Nat) (zeros : best.2 ≤ zeroRun (groups.drop best.1)) :
      let run := starts.foldl (fun best i =>
        let n := zeroRun (groups.drop i)
        if best.2 < n then (i, n) else best) best
      run.2 ≤ zeroRun (groups.drop run.1) := by
    induction starts generalizing best with
    | nil => exact zeros
    | cons i starts ih =>
      rw [List.foldl_cons]
      apply ih
      dsimp only
      split
      · exact Nat.le_refl _
      · exact zeros
  exact among _ (0, 0) (Nat.zero_le _)

theorem take_of_zeroRun {n : Nat} (zeros : n ≤ zeroRun groups) :
    groups.take n = List.replicate n 0 := by
  induction n generalizing groups with
  | zero => simp
  | succ n ih =>
    cases groups with
    | nil => simp [zeroRun] at zeros
    | cons g groups =>
      by_cases zero : g = 0
      · subst g
        have fewer : n ≤ zeroRun groups := by
          simpa [zeroRun] using zeros
        rw [List.take_succ_cons, ih fewer, List.replicate_succ]
      · simp [zeroRun, zero] at zeros

/-! ### Whole addresses -/

theorem not_point_shortGroupsText (groups : List Nat) :
    '.' ∉ (shortGroupsText groups).toList := by
  unfold shortGroupsText
  dsimp only
  split
  · simp [not_point_groupsText]
  · exact not_point_groupsText groups

theorem v6?_shortGroupsText (proper : (v6 groups).Proper) :
    v6? (shortGroupsText groups).toList = some groups := by
  obtain ⟨eight, small⟩ := proper
  have pointless := not_point_shortGroupsText groups
  have inside := longestRun_lt (Nat.lt_of_lt_of_eq (by decide) eight.symm)
  have zeros := longestRun_zeros groups
  unfold shortGroupsText at pointless ⊢
  generalize longestRun groups = run at inside zeros pointless
  obtain ⟨start, length⟩ := run
  dsimp only at inside zeros pointless ⊢
  split at pointless
  · next long =>
    rw [if_pos long]
    have within : start + length ≤ groups.length := by
      have counted := (List.takeWhile_sublist (· == 0) (l := groups.drop start)).length_le
      rw [List.length_drop] at counted
      have bounded : length ≤ groups.length - start := Nat.le_trans zeros counted
      omega
    let back := groups.drop (start + length)
    have text : (groupsText (groups.take start) ++ "::" ++ groupsText back).toList =
        (groupsText (groups.take start)).toList ++ (':' :: ':' :: (groupsText back).toList) := by
      simp
    have front : readGroups 8 true ((groupsText (groups.take start)).toList ++
          ':' :: ':' :: (groupsText back).toList) =
        (groups.take start, false, ':' :: ':' :: (groupsText back).toList) := by
      apply readGroups_groupsText
      · exact fun g member => small g (List.mem_of_mem_take member)
      · rw [List.length_take]
        omega
      · exact .inr ⟨_, rfl⟩
      · rwa [text] at pointless
    have last : readGroups (8 - (start + 1)) true (groupsText back).toList = (back, false, []) := by
      apply readGroups_alone
      · exact fun g member => small g (List.mem_of_mem_drop member)
      · rw [List.length_drop]
        omega
    have counted : (groups.take start).length = start := by
      rw [List.length_take]
      omega
    have missing : 8 - start - back.length = length := by
      rw [List.length_drop]
      omega
    have whole : groups.take start ++ List.replicate length 0 ++ back = groups := by
      rw [← take_of_zeroRun zeros, List.append_assoc]
      show _ ++ (_ ++ groups.drop (start + length)) = groups
      rw [← List.drop_drop, List.take_append_drop, List.take_append_drop]
    rw [text, v6?, front]
    simp only [counted, last, missing, whole]
    rw [if_neg (by omega)]
    simp
  · next short =>
    rw [if_neg short]
    have read := readGroups_alone small (Nat.le_of_eq eight)
    simp [v6?, read, eight]

/-- Two groups that are written as four bytes. -/
theorem v6?_mapped {a b : Nat} (a_small : a < 65536) (b_small : b < 65536) :
    v6? (':' :: ':' :: 'f' :: 'f' :: 'f' :: 'f' :: ':' ::
      (v4Text [a / 256, a % 256, b / 256, b % 256]).toList) =
        some [0, 0, 0, 0, 0, 0xffff, a, b] := by
  have proper : (v4 [a / 256, a % 256, b / 256, b % 256]).Proper := by
    refine ⟨rfl, ?_⟩
    simp only [List.forall_mem_cons]
    exact ⟨by omega, by omega, by omega, by omega, by simp⟩
  have bytes := bytes?_alone proper
  generalize (v4Text [a / 256, a % 256, b / 256, b % 256]).toList = text at bytes
  have colon : isHexDigit ':' = false := by decide
  have lead : group? ('f' :: 'f' :: 'f' :: 'f' :: ':' :: text) = some (0xffff, ':' :: text) := by
    have written : (hexNat 0xffff).toList = ['f', 'f', 'f', 'f'] := by decide +kernel
    have read : group? ((hexNat 0xffff).toList ++ ':' :: text) = some (0xffff, ':' :: text) :=
      group?_hexNat (by decide) (by simp [colon])
    rwa [written] at read
  have letter : bytes? ('f' :: 'f' :: 'f' :: 'f' :: ':' :: text) = none := by
    simp [bytes?, byte?]
  have start : bytes? (':' :: ':' :: 'f' :: 'f' :: 'f' :: 'f' :: ':' :: text) = none := by
    simp [bytes?, byte?]
  have none_ : group? (':' :: ':' :: 'f' :: 'f' :: 'f' :: 'f' :: ':' :: text) = none := by
    simp [group?, colon]
  have high : 256 * (a / 256) + a % 256 = a := Nat.div_add_mod a 256
  have low : 256 * (b / 256) + b % 256 = b := Nat.div_add_mod b 256
  simp [v6?, readGroups, start, none_, letter, lead, bytes, high, low]

/-- An address is read back from its canonical text. -/
theorem ofText?_toText {a : IpAddress} (proper : a.Proper) : ofText? a.toText = some a := by
  cases a with
  | v4 bytes =>
    simp [ofText?, toText, bytes?_alone proper]
  | v6 groups =>
    have whole {cs : List Char} (noBytes : bytes? cs = none) (read : v6? cs = some groups) :
        ofText? (String.ofList cs) = some (v6 groups) := by
      simp [ofText?, noBytes, read]
    rw [toText, ← String.ofList_toList (s := v6Text groups)]
    unfold v6Text
    split
    · next a b =>
      obtain ⟨_, small⟩ := proper
      have a_small : a < 65536 := small a (by simp)
      have b_small : b < 65536 := small b (by simp)
      have text : ("::ffff:" ++ v4Text [a / 256, a % 256, b / 256, b % 256]).toList =
          ':' :: ':' :: 'f' :: 'f' :: 'f' :: 'f' :: ':' ::
            (v4Text [a / 256, a % 256, b / 256, b % 256]).toList := by
        simp
      rw [text]
      exact whole (by simp [bytes?, byte?]) (v6?_mapped a_small b_small)
    · exact whole (bytes?_none (not_point_shortGroupsText groups)) (v6?_shortGroupsText proper)

end IpAddress

end PreparedSql
