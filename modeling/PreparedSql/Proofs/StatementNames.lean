import PreparedSql.Library.Author
import PreparedSql.Proofs.Compilation
import PreparedSql.Proofs.ListedTexts

/-! What the name of a prepared statement says. A name is made of the table and
a digest of the body, so two statements with one name have one body as long as
the digests of the two bodies tell them apart. The types of the arguments are no
part of the name: they stand in the statement that prepares the body, where the
database declares them. -/
namespace PreparedSql

/-! ### Types in a statement -/

namespace Flavor

private theorem unbroken_limitedType {name : String} (n : Nat) (plain : ',' ∉ name.toList) :
    Text.Unbroken (limitedType name n).toList := by
  refine Text.unbroken_of_absent (c := ',') (by decide) fun member => ?_
  simp only [limitedType, String.toList_append, List.mem_append] at member
  rcases member with ((inName | opening) | digit) | closing
  · exact plain inName
  · exact absurd opening (by decide)
  · exact absurd (Text.isDigit_of_mem_toString digit) (by decide)
  · exact absurd closing (by decide)

private theorem unbroken_decimalType {name : String} (precision scale : Nat)
    (plain : ' ' ∉ name.toList) : Text.Unbroken (decimalType name precision scale).toList := by
  refine Text.unbroken_of_absent (c := ' ') (by decide) fun member => ?_
  simp only [decimalType, String.toList_append, List.mem_append] at member
  rcases member with ((((inName | opening) | digit) | comma) | digit) | closing
  · exact plain inName
  · exact absurd opening (by decide)
  · exact absurd (Text.isDigit_of_mem_toString digit) (by decide)
  · exact absurd comma (by decide)
  · exact absurd (Text.isDigit_of_mem_toString digit) (by decide)
  · exact absurd closing (by decide)

private theorem unbroken_genericType (t : FieldType) : Text.Unbroken (genericType t).toList := by
  induction t with
  | decimal precision scale => exact unbroken_decimalType precision scale (by decide)
  | char n | email n | url n | slug n => exact unbroken_limitedType n (by decide)
  | foreignKey target ih => exact ih
  | _ => exact Text.unbroken_of_absent (c := ',') (by decide) (by decide)

/-- The types of arguments are listed with commas, and none of them has one that
is followed by a space. -/
theorem unbroken_bindType (t : FieldType) : Text.Unbroken (postgres.bindType t).toList := by
  unfold bindType columnType
  split
  · next generic => cases generic
  · exact Text.unbroken_of_absent (c := ',') (by decide) (by decide)
  · exact unbroken_genericType _
  · next mysql => cases mysql

end Flavor

namespace Vendor

/-- Under one name and with one body, the types of the arguments make the
statement: not at all, or as the database writes them. -/
theorem prepare_eq_iff {v : Vendor} {name body : String} {types types' : List FieldType} :
    v.prepare name types body = v.prepare name types' body ↔
      v = .mysql ∨ types.map Flavor.postgres.bindType = types'.map Flavor.postgres.bindType := by
  cases v with
  | mysql => simp [prepare]
  | postgres =>
    have listed (ts : List FieldType) : ∀ s ∈ ts.map Flavor.postgres.bindType,
        Text.Unbroken s.toList := by
      intro s member
      obtain ⟨t, _, rfl⟩ := List.mem_map.mp member
      exact Flavor.unbroken_bindType t
    simp only [prepare, reduceCtorEq, false_or, String.append_left_inj, String.append_right_inj]
    cases types with
    | nil =>
      cases types' with
      | nil => simp
      | cons t' ts' => simp
    | cons t ts =>
      cases types' with
      | nil => simp
      | cons t' ts' =>
        simp only [List.isEmpty_cons, Bool.false_eq_true, ↓reduceIte, String.append_left_inj,
          String.append_right_inj]
        constructor
        · intro same
          exact Text.intercalate_injective (listed (t :: ts)) (listed (t' :: ts')) same
        · exact congrArg _

end Vendor

namespace Prepared

/-- The digits in a name, which the body decides. -/
def bodyDigits (body : String) : List Char :=
  (Text.hexEncode (Digest.sha256 body.toUTF8.toList)).toList.take keptDigits

theorem length_bodyDigits (body : String) : (bodyDigits body).length = keptDigits := by
  have digits : (Text.hexEncode (Digest.sha256 body.toUTF8.toList)).toList.length = 64 := by
    simp [Text.hexEncode, List.length_flatMap, Text.hexByte, List.map_const', Digest.length_sha256]
  rw [bodyDigits, List.length_take, digits]
  rfl

/-- One name has one digest. -/
theorem bodyDigits_of_name {table table' body body' : String}
    (same : statementName table body = statementName table' body') :
    bodyDigits body = bodyDigits body' := by
  have listed := congrArg String.toList same
  simp only [statementName, String.toList_append, String.toList_ofList] at listed
  have length : (bodyDigits body).length = (bodyDigits body').length := by
    rw [length_bodyDigits, length_bodyDigits]
  exact List.append_inj_right' listed length

/-- The types of the arguments of an execution, by position. -/
def argumentTypes (a : Artifact) : List FieldType :=
  a.positions.filterMap fun i => a.slots[i]?.map Slot.fieldType

/-- The name and the statement of an artifact are made of its body and of its slots. -/
theorem write_statement {v : Vendor} {types : Types} {q : Query} {a : Artifact}
    (written : write v types q = .ok a) :
    a.name = statementName q.table.name a.body ∧
      a.statement = v.prepare a.name (argumentTypes a) a.body := by
  rw [write] at written
  cases run : ((q.selectTemplate v.flavor).fill (filling v types q.params)).run {} with
  | mk outcome l =>
    simp only [run] at written
    cases outcome with
    | error failure => cases written
    | ok body =>
      cases written
      exact ⟨rfl, rfl⟩

section
variable {v : Vendor} {q q' : Query} {types types' settled settled' : Types} {a b : Artifact}
  {j j' noted noted' : Journal}

/-- Statements with one name have one body, unless the digest of their bodies
fails to tell them apart. They are one statement when the database is not told
the types of the arguments, or is told the same ones. -/
theorem body_of_shared_name
    (compiled : (compile v q).exec types j = ((.ok a, settled), noted))
    (compiled' : (compile v q').exec types' j' = ((.ok b, settled'), noted'))
    (apart : bodyDigits a.body = bodyDigits b.body → a.body = b.body) (shared : a.name = b.name) :
    a.body = b.body ∧ (a.statement = b.statement ↔ v = .mysql ∨
      (argumentTypes a).map Flavor.postgres.bindType =
        (argumentTypes b).map Flavor.postgres.bindType) := by
  obtain ⟨name, statement⟩ := write_statement (compile_ok_iff.mp ⟨_, compiled⟩).2.2
  obtain ⟨name', statement'⟩ := write_statement (compile_ok_iff.mp ⟨_, compiled'⟩).2.2
  have digits := bodyDigits_of_name (name.symm.trans (shared.trans name'))
  have body := apart digits
  refine ⟨body, ?_⟩
  rw [statement, statement', shared, body]
  exact Vendor.prepare_eq_iff

end

section
open Library

/-- A key that is said to be a text, and one of which nothing is said. -/
def textKey : Param := .scalar "a" "id"
def plainKey : Param := .scalar "b" "id"

def keyTypes : Types := Types.empty.inferType textKey .text

/-- The authors with a key. -/
def byKey (key : Param) : Query :=
  { model := Author.model
    condition := some (.binary .equal (.column Author.idColumn) (.param key))
    params := ⟨[key]⟩ }

private theorem compile_byKey {v : Vendor} (key : Param) {settled : Types} {ps : List Part}
    {l : Layout} (walked : ((byKey key).walk resolver).exec keyTypes [] = ((.ok (), settled), []))
    (typed : settled.fieldType? key ≠ none)
    (made : (parts v settled ⟨[key]⟩ (pieces v (byKey key))).run {} = (.ok ps, l)) :
    ∃ a noted, (compile v (byKey key)).exec keyTypes [] = ((.ok a, settled), noted) ∧
      a.body = bodyOf v ps ∧
      argumentTypes a = (positionsOf v l).filterMap fun i => l.slots[i]?.map Slot.fieldType := by
  obtain ⟨a, written, body, slots, positions⟩ := write_of_parts (q := byKey key) made
  have known : ∀ p ∈ (byKey key).params.params, settled.fieldType? p ≠ none := by
    intro p member
    rw [List.mem_singleton.mp member]
    exact typed
  obtain ⟨noted, compiled⟩ := compile_ok_iff.mpr ⟨⟨_, walked⟩, known, written⟩
  exact ⟨a, noted, compiled, body, by rw [argumentTypes, slots, positions]⟩

private theorem byKey_compiles (v : Vendor) : ∃ a b settled settled' noted noted',
    (compile v (byKey textKey)).exec keyTypes [] = ((.ok a, settled), noted) ∧
      (compile v (byKey plainKey)).exec keyTypes [] = ((.ok b, settled'), noted') ∧
      a.body = b.body ∧ argumentTypes a = [.text] ∧ argumentTypes b = [.integer] := by
  obtain ⟨a, noted, compiled, body, types⟩ :=
    compile_byKey (v := v) textKey rfl (by decide) rfl
  obtain ⟨b, noted', compiled', body', types'⟩ :=
    compile_byKey (v := v) plainKey rfl (by decide) rfl
  refine ⟨a, b, _, _, noted, noted', compiled, compiled', body.trans body'.symm, ?_, ?_⟩
  · rw [types]
    cases v <;> rfl
  · rw [types']
    cases v <;> rfl

/-- Under one name the database is told a text or a whole number, as the
parameter is said to be. -/
theorem shared_name_other_statement : ∃ a b settled settled' noted noted',
    (compile .postgres (byKey textKey)).exec keyTypes [] = ((.ok a, settled), noted) ∧
      (compile .postgres (byKey plainKey)).exec keyTypes [] = ((.ok b, settled'), noted') ∧
      a.name = b.name ∧ a.body = b.body ∧ a.statement ≠ b.statement := by
  obtain ⟨a, b, _, _, _, _, compiled, compiled', body, types, types'⟩ := byKey_compiles .postgres
  obtain ⟨name, statement⟩ := write_statement (compile_ok_iff.mp ⟨_, compiled⟩).2.2
  obtain ⟨name', statement'⟩ := write_statement (compile_ok_iff.mp ⟨_, compiled'⟩).2.2
  have shared : a.name = b.name := by
    rw [name, name', body]
    rfl
  refine ⟨a, b, _, _, _, _, compiled, compiled', shared, body, ?_⟩
  rw [statement, statement', shared, body, types, types', Ne, Vendor.prepare_eq_iff]
  decide

theorem byKey_shares_body : ∃ a b settled settled' noted noted',
    (compile .mysql (byKey textKey)).exec keyTypes [] = ((.ok a, settled), noted) ∧
      (compile .mysql (byKey plainKey)).exec keyTypes [] = ((.ok b, settled'), noted') ∧
      a.name = b.name ∧ a.body = b.body ∧ a.statement = b.statement := by
  obtain ⟨a, b, _, _, _, _, compiled, compiled', same, _, _⟩ := byKey_compiles .mysql
  have name := (write_statement (compile_ok_iff.mp ⟨_, compiled⟩).2.2).1
  have name' := (write_statement (compile_ok_iff.mp ⟨_, compiled'⟩).2.2).1
  have shared : a.name = b.name := by
    rw [name, name', same]
    rfl
  obtain ⟨body, statement⟩ := body_of_shared_name compiled compiled' (fun _ => same) shared
  exact ⟨a, b, _, _, _, _, compiled, compiled', shared, body, statement.mpr (.inl rfl)⟩

end

end Prepared

end PreparedSql
