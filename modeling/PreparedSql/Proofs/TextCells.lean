import PreparedSql.Proofs.WrittenMoments

/-! Cells of results come back as texts. What the literal of a truth value, a whole number, a byte
string or a time of day hands over is a text that the type of the value takes back, to its last
character, as just that value. -/
namespace PreparedSql

open Text

namespace Flavor

/-- A word or a number hands over itself. -/
theorem payload_bare (f : Flavor) {literal : String} (bare : Bare literal.toList) :
    f.payload literal = literal := by
  refine f.payload_unquoted fun quoted => ?_
  exact (quotable_of_bare bare _ (List.mem_of_head? quoted)).1 rfl

theorem bare_boolean (b : Bool) : Bare (boolean b).toList := by
  cases b <;> decide

/-- The backslash in front of the digits escapes nothing here. -/
theorem payload_blob (b : List UInt8) :
    postgres.payload (postgres.blob b) = "\\x" ++ hexEncode b := by
  refine payload_single fun c member => ⟨?_, .inl rfl⟩
  rw [String.toList_append, List.mem_append] at member
  rcases member with lead | digit
  · rintro rfl
    revert lead
    decide
  · exact (quotable_of_bare (bare_hexEncode b) c digit).1

end Flavor

namespace Native

theorem parse_boolean (b : Bool) : parse boolean (Flavor.boolean b) = .ok b := by
  have word : spanWhile isAlphanumeric (Flavor.boolean b) = (Flavor.boolean b, "") := by
    cases b <;> simp [Flavor.boolean, spanWhile, isAlphanumeric_of_ascii]
  have truth : truth? (Flavor.boolean b) = some b := by
    cases b <;> decide +kernel
  have read : extractBoolean (Flavor.boolean b) = .ok (b, "") := by
    simp only [extractBoolean, word, truth]
  exact parse_ok (by simp) read

theorem parse_int {k : IntKind} (n : Ranged k) : parse (int k) (toString n.value) = .ok n := by
  have ranged : Ranged.ofInt? k n.value = some n := Ranged.ofInt?_eq_some_iff.mpr rfl
  have read : extractInt k (toString n.value) = .ok (n, "") := by
    rw [extractInt, signedDigits_toString]
    simp [ranged]
  exact parse_ok (by simp) read

theorem ofValue_int_unknown (k : IntKind) (s : String) :
    (int k).ofValue (.unknown (some s)) = parse (int k) (trim s) := by
  simp only [ofValue, intOfValue, whole?, bind, Except.bind]

/-- The mark is taken off whatever digits follow, and all of them are read. -/
theorem parse_bytes (b : List UInt8) : parse bytes ("\\x" ++ hexEncode b) = .ok b := by
  have listed : ("\\x" ++ hexEncode b).toList = '\\' :: 'x' :: b.flatMap hexByte := by
    simp [hexEncode]
  have split : splitBytes? 2 ('\\' :: 'x' :: b.flatMap hexByte) =
      some (['\\', 'x'], b.flatMap hexByte) := by
    have single : '\\'.utf8Size = 1 ∧ 'x'.utf8Size = 1 := by decide
    simp [splitBytes?, single]
  have read : extractBytes ("\\x" ++ hexEncode b) = .ok (b, "") := by
    rw [extractBytes, listed, split]
    simp [takeWhile_hexBytes, hexDecodeChars_flatMap]
  exact parse_ok (by simp) read

/-- Text cells read back what was written. The literals of truth values, whole numbers of each
width, byte strings and times of day hand over texts that come back as the value they were written
for: with each of its nanoseconds, with each of its bytes, and at the limits of its width. -/
theorem cells_read_back :
    (∀ b : Bool, boolean.ReadsBack .postgres (.boolean (some b)) (.ok b)) ∧
    (∀ (k : IntKind) (n : Ranged k), (int k).ReadsBack .postgres (.int k (some n)) (.ok n)) ∧
    (∀ b : List UInt8, bytes.ReadsBack .postgres (.blob (some b)) (.ok b)) ∧
    ∀ t : TimeOfDay, time.ReadsBack .postgres (.time (some t)) (.ok t) := by
  refine ⟨fun b => ⟨_, rfl, ?_⟩, fun k n => ⟨_, rfl, ?_⟩, fun b => ⟨_, rfl, ?_⟩,
    fun t => ⟨_, rfl, ?_⟩⟩
  · rw [Flavor.payload_bare _ (Flavor.bare_boolean b)]
    exact ⟨parse_boolean b, parse_boolean b⟩
  · rw [Flavor.payload_bare _ (bare_int n.value)]
    exact readsAs_of_trim (ofValue_int_unknown k) (parse_int n) (trim_of_bare (bare_int n.value))
  · rw [Flavor.payload_blob]
    exact ⟨parse_bytes b, parse_bytes b⟩
  · rw [Flavor.payload_quotable _ t.quotable_sqlText]
    exact readsAs_of_trim (fun _ => rfl) (parse_time t) (trim_timeText t)

end Native

end PreparedSql
