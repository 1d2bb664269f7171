import PreparedSql.Library.Author
import PreparedSql.Proofs.BracketedReading
import PreparedSql.Proofs.FaithfulIndex
import PreparedSql.Proofs.QuotedReading
import PreparedSql.Proofs.WrittenNumbers

/-! What an insert stores. A server reads the names of the columns and then tuple by tuple, each one
up to the parenthesis that closes it, so a value that holds parentheses, commas or the word for a
default moves no other value to another column. The form for one row follows the order of the row
and the form for many rows that of the table; read like this, they store the same. -/
namespace PreparedSql

open Text

/-! ### Beginnings of literals -/

namespace Flavor

variable {f : Flavor} {cs : List Char}

/-- How literals begin: no name, no blank and no default begins like one. -/
def leads : List Char → Bool
  | [] => false
  | c :: _ => c.isDigit || ['-', '\'', '(', 'A', 'N', 'X', 'f', 't'].contains c

theorem leads_append (front : leads cs = true) (ds : List Char) : leads (cs ++ ds) = true := by
  cases cs with
  | nil => cases front
  | cons c cs => exact front

theorem leads_digit {c : Char} (digit : c.isDigit = true) (cs : List Char) :
    leads (c :: cs) = true :=
  Bool.or_eq_true_iff.mpr (.inl digit)

theorem leads_digits (digits : Digits cs) (filled : cs ≠ []) : leads cs = true := by
  cases cs with
  | nil => exact absurd rfl filled
  | cons c cs => exact leads_digit (digits c List.mem_cons_self) cs

theorem leads_take (digits : Digits cs) (filled : cs ≠ []) {n : Nat} (present : n ≠ 0) :
    leads (cs.take n) = true := by
  refine leads_digits (fun c member => digits c (List.mem_of_mem_take member)) ?_
  simp [filled, present]

theorem leads_int (n : Int) : leads (toString n).toList = true := by
  cases n with
  | ofNat n =>
    show leads (toString n).toList = true
    rw [Nat.toString_eq_ofList_toDigits, String.toList_ofList]
    exact leads_digits (digits_toDigits n) Nat.toDigits_ne_nil
  | negSucc n =>
    have written : toString (Int.negSucc n) = "-" ++ toString (n + 1) := rfl
    rw [written, String.toList_append]
    rfl

/-- With its sign a number begins as numbers do. -/
theorem leads_signed (negative : Bool) (magnitude : leads cs = true) :
    leads ((if negative then "-" else "").toList ++ cs) = true := by
  cases negative with
  | true => rfl
  | false => exact magnitude

theorem leads_decimal (d : Decimal) : leads d.toText.toList = true := by
  have digits := digits_padded (d.scale + 1) d.units
  have filled := padded_ne_nil (d.scale + 1) d.units
  have counted := length_padded (d.scale + 1) d.units
  rw [Decimal.toText, String.toList_append, String.toList_ofList]
  refine leads_signed _ ?_
  split
  · exact leads_digits digits filled
  · exact leads_append (leads_take digits filled (by omega)) _

theorem leads_positionalText (fraction : Bool) (digits : Digits cs) (filled : cs ≠ []) (k : Int) :
    leads (FloatLayout.positionalText fraction cs k) = true := by
  unfold FloatLayout.positionalText
  dsimp only
  split
  · rfl
  · split
    · rw [List.append_assoc]
      exact leads_append (leads_digits digits filled) _
    · exact leads_append (leads_take digits filled (by omega)) _

theorem leads_exponentText (digits : Digits cs) (filled : cs ≠ []) (k : Int) :
    leads (FloatLayout.exponentText cs k) = true := by
  refine leads_append ?_ _
  match cs, digits with
  | [], _ => exact absurd rfl filled
  | [d], digits | d :: _ :: _, digits => exact leads_digit (digits d List.mem_cons_self) _

theorem leads_magnitudeText (layout : FloatLayout) (format : BinaryFormat) (rank : Nat) :
    leads (layout.magnitudeText format rank) = true := by
  unfold FloatLayout.magnitudeText
  split
  · cases layout.fraction <;> rfl
  · dsimp only
    have digits (n : Nat) := digits_toDigits n
    have filled (n : Nat) : Nat.toDigits 10 n ≠ [] := Nat.toDigits_ne_nil
    split
    · exact leads_positionalText _ (digits _) (filled _) _
    · split
      · exact leads_positionalText _ (digits _) (filled _) _
      · exact leads_exponentText (digits _) (filled _) _

theorem leads_number (layout : FloatLayout) {format : BinaryFormat} (x : Binary format) :
    leads (f.number layout x).toList = true := by
  cases x with
  | nan =>
    show leads "'NaN'".toList = true
    decide
  | number negative rank bounded =>
    unfold number
    rw [if_neg (by simp [Binary.isNan])]
    split
    · cases f <;> simp only [infinity] <;> split <;> rfl
    · next finite =>
      have below : rank ≠ format.infinity := by simpa [Binary.isInfinite] using finite
      rw [FloatLayout.text, if_neg below, String.toList_append, String.toList_ofList]
      exact leads_signed negative (leads_magnitudeText layout format rank)

theorem leads_single (s : String) : leads (single s).toList = true := by
  rw [toList_single]
  rfl

theorem leads_string (f : Flavor) (s : String) : leads (f.string s).toList = true := by
  cases f with
  | generic | postgres =>
    show leads (enclosed '\'' s).toList = true
    rw [toList_enclosed]
    rfl
  | mysql => exact leads_single _

theorem leads_blob (f : Flavor) (bytes : List UInt8) : leads (f.blob bytes).toList = true := by
  cases f with
  | generic | mysql =>
    show leads ("X" ++ single _).toList = true
    rw [String.toList_append]
    rfl
  | postgres => exact leads_single _

theorem leads_listing (f : Flavor) (items : List String) :
    leads (f.listing items).toList = true := by
  cases f <;> simp only [listing, String.toList_append] <;> rfl

theorem leads_literal {v : Value} {text : String} (written : f.literal v = .ok text) :
    leads text.toList = true := by
  cases spells_of_literal written with
  | boolean b => cases b <;> rfl
  | int n => exact leads_int n.value
  | single x => exact leads_number _ x
  | double x => exact leads_number _ x
  | decimal d => exact leads_decimal d
  | varchar s | unknown s => exact leads_string f s
  | blob bytes => exact leads_blob f bytes
  | date | time | timestamp | zoned | uuid => exact leads_single _
  | list => exact leads_listing f _
  | null => rfl

theorem unindented_of_leads (lead : leads cs = true) : unindented cs = cs := by
  cases cs with
  | nil => cases lead
  | cons c cs =>
    have solid : ¬ (c == ' ') = true := by
      intro same
      rw [eq_of_beq same] at lead
      cases lead
    exact List.dropWhile_cons_of_neg solid

/-- No value is written as the default of its column. -/
theorem literal_ne_default {v : Value} {text : String} (written : f.literal v = .ok text) :
    text ≠ "DEFAULT" := by
  rintro rfl
  have lead := leads_literal written
  revert lead
  decide

/-! ### Items -/

theorem isItem_default : f.IsItem "DEFAULT" where
  whole := whole_bare (by decide)
  filled := by decide
  solid := by decide

theorem isItem_literal {v : Value} {text : String} (written : f.literal v = .ok text) :
    f.IsItem text where
  whole := whole_literal written
  filled := fun nothing => by
    have lead := leads_literal written
    rw [nothing] at lead
    cases lead
  solid := unindented_of_leads (leads_literal written)

theorem isItem_identifier (f : Flavor) (name : String) : f.IsItem (f.identifier name) where
  whole := whole_identifier name
  filled := by simp [toList_identifier_doubled]
  solid := by
    have solid : (f.nameMark == ' ') = false := by cases f <;> rfl
    rw [toList_identifier_doubled]
    exact List.dropWhile_cons_of_neg (by simp [solid])

/-- The value of a row or the default, either is an item. -/
theorem isItem_cell {row : NamedRow} {c : Column} {text : String}
    (written : f.cell row c = .ok text) : f.IsItem text := by
  unfold cell at written
  split at written
  · exact isItem_literal written
  · cases written
    exact isItem_default

/-! ### Reading an insert -/

/-- A name without its marks, where nothing stands behind them. -/
def unquoted? (f : Flavor) (s : String) : Option String :=
  match Quoting.standard.read? f.nameMark s.toList with
  | some (name, []) => some (String.ofList name)
  | _ => none

theorem unquoted?_identifier (f : Flavor) (name : String) :
    f.unquoted? (f.identifier name) = some name := by
  have read : Quoting.standard.read? f.nameMark ((enclosed f.nameMark name).toList ++ []) =
      some (name.toList, []) := read?_enclosed f.nameMark name (by simp)
  rw [List.append_nil] at read
  rw [unquoted?, identifier, read]
  exact congrArg some String.ofList_toList

/-- Tuples on lines of their own; the semicolon behind the last one ends the statement. -/
def readTuples? (f : Flavor) (cs : List Char) : Option (List (List String)) :=
  match _read : f.readTuple? cs with
  | some (items, [';']) => some [items]
  | some (items, ',' :: '\n' :: rest) => (f.readTuples? rest).map (items :: ·)
  | _ => none
termination_by cs.length
decreasing_by
  have shorter := readTuple?_shorter _read
  simp only [List.length_cons] at shorter
  omega

/-- The columns that an insert names, and the items of its tuples. -/
def insertion? (f : Flavor) (t : TableRef) (text : String) :
    Option (List String × List (List String)) := do
  let listed ← text.toList.dropPrefix? ("INSERT INTO " ++ f.table t ++ " ").toList
  let (named, rest) ← f.readTuple? listed
  let stored ← rest.dropPrefix? " VALUES\n".toList
  return (← named.mapM f.unquoted?, ← f.readTuples? stored)

theorem readTuples?_last {items : List String} (each : ∀ s ∈ items, f.IsItem s) :
    f.readTuples? ((tuple items).toList ++ [';']) = some [items] := by
  rw [readTuples?]
  split
  · next read =>
    rw [readTuple?_tuple each] at read
    cases read
    rfl
  · next read =>
    rw [readTuple?_tuple each] at read
    cases read
  · next other _ => exact absurd (readTuple?_tuple each _) (other _)

theorem readTuples?_more {items : List String} (each : ∀ s ∈ items, f.IsItem s)
    (cs : List Char) : f.readTuples? ((tuple items).toList ++ ',' :: '\n' :: cs) =
      (f.readTuples? cs).map (items :: ·) := by
  rw [readTuples?]
  split
  · next read =>
    rw [readTuple?_tuple each] at read
    cases read
  · next read =>
    rw [readTuple?_tuple each] at read
    cases read
    rfl
  · next _ other => exact absurd (readTuple?_tuple each _) (other _ _)

theorem readTuples?_tuples {items : List String} {more : List (List String)}
    (each : ∀ tuple ∈ items :: more, ∀ s ∈ tuple, f.IsItem s) :
    f.readTuples? ((String.intercalate ",\n" ((items :: more).map tuple)).toList ++ [';']) =
      some (items :: more) := by
  rw [String.toList_intercalate, List.map_map]
  induction more generalizing items with
  | nil =>
    rw [List.map_singleton, List.intercalate_singleton]
    exact readTuples?_last (each items List.mem_cons_self)
  | cons items' more ih =>
    obtain ⟨first, others⟩ := List.forall_mem_cons.mp each
    have behind := readTuples?_more first
      (",\n".toList.intercalate ((items' :: more).map (String.toList ∘ tuple)) ++ [';'])
    rw [ih others] at behind
    simpa [List.intercalate_cons_cons] using behind

theorem mapM_unquoted? (f : Flavor) (names : List String) :
    (names.map f.identifier).mapM f.unquoted? = some names := by
  induction names with
  | nil => rfl
  | cons name names ih => simp [List.mapM_cons, unquoted?_identifier, ih]

/-- The names and the items of an insert are read back. -/
theorem insertion?_written {f : Flavor} (t : TableRef) (names : List String)
    {items : List String} {more : List (List String)}
    (each : ∀ tuple ∈ items :: more, ∀ s ∈ tuple, f.IsItem s) :
    f.insertion? t
      (f.insertHead t names ++ String.intercalate ",\n" ((items :: more).map tuple) ++ ";") =
      some (names, items :: more) := by
  have named : ∀ s ∈ names.map f.identifier, f.IsItem s := by
    intro s member
    obtain ⟨name, _, rfl⟩ := List.mem_map.mp member
    exact isItem_identifier f name
  have dropped (front cs : List Char) : (front ++ cs).dropPrefix? front = some cs :=
    List.dropPrefix?_append_of_beq cs (beq_self_eq_true front)
  have front : (f.insertHead t names ++
      String.intercalate ",\n" ((items :: more).map tuple) ++ ";").toList =
      ("INSERT INTO " ++ f.table t ++ " ").toList ++ ((tuple (names.map f.identifier)).toList ++
        (" VALUES\n".toList ++
          ((String.intercalate ",\n" ((items :: more).map tuple)).toList ++ [';']))) := by
    simp [insertHead]
  rw [insertion?, front, dropped, Option.bind_eq_bind, Option.bind_some, readTuple?_tuple named,
    Option.bind_eq_bind, Option.bind_some]
  dsimp only
  rw [dropped, Option.bind_eq_bind, Option.bind_some, mapM_unquoted?, readTuples?_tuples each]
  rfl

/-! ### Rows -/

/-- The names of a row are distinct, and columns of the table have them. -/
structure RowOf (columns : List Column) (row : NamedRow) : Prop where
  distinct : (row.map Prod.fst).Nodup
  known : ∀ entry ∈ row, entry.1 ∈ columns.map Column.name

instance (columns : List Column) (row : NamedRow) : Decidable (RowOf columns row) :=
  decidable_of_iff ((row.map Prod.fst).Nodup ∧ ∀ entry ∈ row, entry.1 ∈ columns.map Column.name)
    ⟨fun ⟨distinct, known⟩ => ⟨distinct, known⟩, fun row => ⟨row.distinct, row.known⟩⟩

/-- The item is what the row has for the column, or else the default. -/
def Stores (f : Flavor) (row : NamedRow) (c : Column) (item : String) : Prop :=
  (∀ v, (c.name, v) ∈ row → f.literal v = .ok item) ∧
    (c.name ∉ row.map Prod.fst → item = "DEFAULT")

/-- The columns for which a tuple has more than the default, each with its item. -/
def given (names tuple : List String) : List (String × String) :=
  (names.zip tuple).filter (·.2 ≠ "DEFAULT")

/-- Inserted by itself a row lists the pairs that the tuple gives, in whatever order. -/
def StoresAlone (f : Flavor) (t : TableRef) (columns : List Column) (row : NamedRow)
    (tuple : List String) : Prop :=
  ∃ text names items, f.insertRows t columns [row] = .ok (some text) ∧
    f.insertion? t text = some (names, [items]) ∧ names.length = items.length ∧
    (names.zip items).Perm (given (columns.map Column.name) tuple)

variable {t : TableRef} {columns : List Column} {rows : List NamedRow} {row row' : NamedRow}
  {c : Column} {v : Value}

theorem cell_of_mem (distinct : (row.map Prod.fst).Nodup) (member : (c.name, v) ∈ row) :
    f.cell row c = f.literal v := by
  have found : row.find? (·.1 == c.name) = some (c.name, v) :=
    (find?_key_iff distinct).mpr ⟨member, rfl⟩
  rw [cell, found]

theorem cell_of_absent (absent : c.name ∉ row.map Prod.fst) : f.cell row c = .ok "DEFAULT" := by
  have missing : row.find? (·.1 == c.name) = none := by
    rw [List.find?_eq_none]
    intro entry member named
    exact absent (List.mem_map.mpr ⟨entry, member, by simpa using named⟩)
  rw [cell, missing]

theorem stores_cell (distinct : (row.map Prod.fst).Nodup) {item : String}
    (written : f.cell row c = .ok item) : f.Stores row c item := by
  refine ⟨fun v member => ?_, fun absent => ?_⟩
  · rw [← cell_of_mem distinct member]
    exact written
  · rw [cell_of_absent absent] at written
    cases written
    rfl

/-- What is not the default comes from the row. -/
theorem mem_of_cell (distinct : (row.map Prod.fst).Nodup) {item : String}
    (written : f.cell row c = .ok item) (other : item ≠ "DEFAULT") :
    ∃ v, (c.name, v) ∈ row ∧ f.literal v = .ok item := by
  obtain ⟨stored, missing⟩ := stores_cell distinct written
  by_cases present : c.name ∈ row.map Prod.fst
  · obtain ⟨⟨_, v⟩, member, rfl⟩ := List.mem_map.mp present
    exact ⟨v, member, stored v member⟩
  · exact absurd (missing present) other

/-- Of items that are named and written one by one, the pairs. -/
theorem mem_zip_of_mapM {α : Type} {name : α → String} {write : α → Except Failure String}
    {xs : List α} {items : List String} (written : xs.mapM write = .ok items) {pair : String × String} :
    pair ∈ (xs.map name).zip items ↔ ∃ x ∈ xs, name x = pair.1 ∧ write x = .ok pair.2 := by
  induction xs generalizing items with
  | nil =>
    cases written
    simp
  | cons x xs ih =>
    rw [List.mapM_cons] at written
    obtain ⟨item, first, rest⟩ := Outcome.bind_ok.mp written
    obtain ⟨more, others, answer⟩ := Outcome.bind_ok.mp rest
    cases answer
    rw [List.map_cons, List.zip_cons_cons, List.mem_cons, ih others, List.exists_mem_cons_iff,
      first, Except.ok.injEq, Prod.ext_iff, eq_comm, @eq_comm _ pair.2]

theorem nodup_zip {names items : List String} (once : names.Nodup)
    (length : items.length = names.length) : (names.zip items).Nodup := by
  refine List.Nodup.of_map Prod.fst ?_
  rw [List.map_fst_zip (Nat.le_of_eq length.symm)]
  exact once

/-- A row and the tuple that stores it have the same pairs. -/
theorem perm_given (distinct : (columns.map Column.name).Nodup) (proper : RowOf columns row)
    {items tuple : List String} (listed : (row.mapM fun entry => f.literal entry.2) = .ok items)
    (stored : columns.mapM (f.cell row) = .ok tuple) :
    ((row.map Prod.fst).zip items).Perm (given (columns.map Column.name) tuple) := by
  have once : ((row.map Prod.fst).zip items).Nodup :=
    nodup_zip proper.distinct (by rw [(Outcome.mapM_ok listed).1, List.length_map])
  have once' : ((columns.map Column.name).zip tuple).Nodup :=
    nodup_zip distinct (by rw [(Outcome.mapM_ok stored).1, List.length_map])
  -- each column is listed at most once on either side, so it is enough that the pairs are the same
  rw [given, List.perm_ext_iff_of_nodup once (once'.filter _)]
  rintro ⟨name, item⟩
  rw [List.mem_filter, mem_zip_of_mapM listed, mem_zip_of_mapM stored, decide_eq_true_eq]
  constructor
  · rintro ⟨⟨_, v⟩, member, rfl, written⟩
    obtain ⟨c, inside, named⟩ := List.mem_map.mp (proper.known _ member)
    dsimp only at named written
    have cell := cell_of_mem (f := f) proper.distinct (named ▸ member)
    exact ⟨⟨c, inside, named, cell.trans written⟩, literal_ne_default written⟩
  · rintro ⟨⟨c, _, rfl, written⟩, other⟩
    obtain ⟨v, member, literal⟩ := mem_of_cell proper.distinct written other
    exact ⟨_, member, rfl, literal⟩

theorem insertRows_single {items : List String}
    (listed : (row.mapM fun entry => f.literal entry.2) = .ok items) :
    f.insertRows t columns [row] =
      .ok (some (f.insertHead t (row.map Prod.fst) ++ Flavor.tuple items ++ ";")) := by
  rw [insertRows, listed]
  rfl

/-- The order of the entries does not matter to a row, nor to what it has for a column. -/
theorem rowOf_perm (proper : RowOf columns row) (same : row'.Perm row) : RowOf columns row' where
  distinct := (same.map Prod.fst).nodup_iff.mpr proper.distinct
  known entry member := proper.known entry (same.mem_iff.mp member)

theorem cell_perm (proper : RowOf columns row) (same : row'.Perm row) (c : Column) :
    f.cell row' c = f.cell row c := by
  by_cases present : c.name ∈ row.map Prod.fst
  · obtain ⟨⟨_, v⟩, member, named⟩ := List.mem_map.mp present
    dsimp only at named
    rw [named] at member
    rw [cell_of_mem proper.distinct member,
      cell_of_mem (rowOf_perm proper same).distinct (same.mem_iff.mpr member)]
  · have absent : c.name ∉ row'.map Prod.fst :=
      fun present' => present ((same.map Prod.fst).mem_iff.mp present')
    rw [cell_of_absent present, cell_of_absent absent]

theorem storesAlone_of_perm (distinct : (columns.map Column.name).Nodup)
    (proper : RowOf columns row) (same : row'.Perm row)
    (inside : ∀ entry ∈ row, entry.2.inCalendar = true) {tuple : List String}
    (stored : columns.mapM (f.cell row) = .ok tuple) : f.StoresAlone t columns row' tuple := by
  have cells : f.cell row' = f.cell row := funext (cell_perm proper same)
  have writes : WrittenWhen (∀ entry ∈ row', entry.2.inCalendar = true)
      (row'.mapM fun entry => f.literal entry.2) :=
    writtenWhen_mapM fun entry _ => f.writtenWhen_literal entry.2
  obtain ⟨items, listed⟩ :=
    written_of_holds writes fun entry member => inside entry (same.mem_iff.mp member)
  have each : ∀ tuple ∈ [items], ∀ s ∈ tuple, f.IsItem s := by
    intro tuple member s inside
    rw [List.mem_singleton.mp member] at inside
    obtain ⟨entry, _, written⟩ := Outcome.mem_of_mapM listed s inside
    exact isItem_literal written
  rw [← cells] at stored
  refine ⟨_, row'.map Prod.fst, items, insertRows_single listed, ?_, ?_,
    perm_given distinct (rowOf_perm proper same) listed stored⟩
  · simpa using insertion?_written t (row'.map Prod.fst) each
  · rw [(Outcome.mapM_ok listed).1, List.length_map]

/-- A row has all its items just when the calendar has its moments. -/
theorem writtenWhen_cells (f : Flavor) (proper : RowOf columns row) :
    WrittenWhen (∀ entry ∈ row, entry.2.inCalendar = true) (columns.mapM (f.cell row)) := by
  have each : ∀ c ∈ columns,
      WrittenWhen (∀ v, (c.name, v) ∈ row → v.inCalendar = true) (f.cell row c) := by
    intro c _
    by_cases present : c.name ∈ row.map Prod.fst
    · obtain ⟨⟨_, v⟩, member, rfl⟩ := List.mem_map.mp present
      rw [cell_of_mem proper.distinct member]
      refine writtenWhen_congr ⟨fun holds v' member' => ?_, fun all => all v member⟩
        (f.writtenWhen_literal v)
      have same := List.inj_on_of_nodup_map proper.distinct member member' rfl
      cases same
      exact holds
    · rw [cell_of_absent present]
      exact .written (fun v member => absurd (List.mem_map_of_mem member) present) _
  refine writtenWhen_congr ⟨fun all entry member => ?_, fun all c _ v member => all _ member⟩
    (writtenWhen_mapM each)
  obtain ⟨c, inside, named⟩ := List.mem_map.mp (proper.known entry member)
  exact all c inside entry.2 (named ▸ member)

/-- A row is stored the same by itself and among others. Rows are inserted unless a moment in them
leaves the calendar at UTC. For rows of distinct columns of a table with distinct columns, a server
that reads the insert of several rows finds for each of them one tuple with one item for each column
of the table, the literal of the row's value or else the default; and in the insert of the row alone,
in whatever order it has its entries, it finds just the pairs of columns and literals that the tuple
gives besides its defaults. -/
theorem row_stored_alike (distinct : (columns.map Column.name).Nodup)
    (proper : ∀ row ∈ rows, RowOf columns row) (several : 2 ≤ rows.length) :
    WrittenWhen (∀ row ∈ rows, ∀ entry ∈ row, entry.2.inCalendar = true)
      (f.insertRows t columns rows) ∧
    ∀ inserted, f.insertRows t columns rows = .ok inserted → ∃ text tuples,
      inserted = some text ∧ f.insertion? t text = some (columns.map Column.name, tuples) ∧
      List.Forall₂ (fun row tuple => List.Forall₂ (f.Stores row) columns tuple ∧
        ∀ row', row'.Perm row → f.StoresAlone t columns row' tuple) rows tuples := by
  obtain ⟨row, row', more, rfl⟩ : ∃ row row' more, rows = row :: row' :: more := by
    match rows, several with
    | row :: row' :: more, _ => exact ⟨row, row', more, rfl⟩
  have writes : WrittenWhen (∀ r ∈ row :: row' :: more, ∀ entry ∈ r, entry.2.inCalendar = true)
      ((row :: row' :: more).mapM fun r => columns.mapM (f.cell r)) :=
    writtenWhen_mapM fun r member => writtenWhen_cells f (proper r member)
  refine ⟨writtenWhen_map _ writes, fun inserted run => ?_⟩
  obtain ⟨tuples, stored, answer⟩ := Outcome.bind_ok.mp run
  cases answer
  have inside := holds_of_written writes stored
  have items : ∀ tuple ∈ tuples, ∀ s ∈ tuple, f.IsItem s := by
    intro tuple member s item
    obtain ⟨r, _, cells⟩ := Outcome.mem_of_mapM stored tuple member
    obtain ⟨c, _, written⟩ := Outcome.mem_of_mapM cells s item
    exact isItem_cell written
  have pairs := Outcome.mapM_ok_iff.mp stored
  refine ⟨_, tuples, rfl, ?_, ?_⟩
  · cases pairs with
    | cons _ _ => exact insertion?_written t (columns.map Column.name) items
  · have each := (List.forall₂_and_left (row :: row' :: more) tuples).mpr
      ⟨fun _ member => member, pairs⟩
    refine each.imp fun r tuple ⟨member, cells⟩ => ?_
    have rowOf := proper r member
    refine ⟨(Outcome.mapM_ok_iff.mp cells).imp fun c item written =>
      stores_cell rowOf.distinct written, fun r' same => ?_⟩
    exact storesAlone_of_perm distinct rowOf same (inside r member) cells

/-- A row with texts that look like the end of a tuple and like a default, and a row of nothing. -/
def misleading : List NamedRow :=
  [[("email", .varchar (some "'), (DEFAULT")), ("name", .varchar (some "DEFAULT"))], []]

open Library in
theorem misleading_stored_alike : ∃ text tuples,
    mysql.insertRows Author.table Author.model.columns misleading = .ok (some text) ∧
      mysql.insertion? Author.table text = some (["id", "name", "email"],
        ["DEFAULT", "'DEFAULT'", "'''), (DEFAULT'"] :: tuples) ∧
      mysql.StoresAlone Author.table Author.model.columns
        [("name", .varchar (some "DEFAULT")), ("email", .varchar (some "'), (DEFAULT"))]
        ["DEFAULT", "'DEFAULT'", "'''), (DEFAULT'"] := by
  obtain ⟨writes, stored⟩ :=
    @row_stored_alike mysql Author.table Author.model.columns misleading
      (by decide) (by decide) (by decide)
  obtain ⟨inserted, written⟩ := written_of_holds writes (by decide)
  obtain ⟨text, tuples, rfl, read, stored⟩ := stored inserted written
  cases stored with
  | @cons _ tuple _ others first _ =>
    obtain ⟨cells, alone⟩ := first
    have items : tuple = ["DEFAULT", "'DEFAULT'", "'''), (DEFAULT'"] := by
      match tuple, cells with
      | _, .cons key (.cons name (.cons email .nil)) =>
        have named := name.1 _ (.tail _ (.head _))
        have mailed := email.1 _ (.head _)
        cases named
        cases mailed
        rw [key.2 (by decide)]
        decide
    subst items
    exact ⟨text, others, written, read, alone _ (List.Perm.swap _ _ _)⟩

end Flavor

end PreparedSql
