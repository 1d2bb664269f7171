import PreparedSql.Library.Author

/-! Books, a model of a library that refers to another one. -/
namespace PreparedSql.Library

/-- A book without a key is not stored yet. -/
structure Book where
  id : Option (Ranged .int32)
  title : String
  /-- The key of the author. -/
  author : Ranged .int32
  year : Option (Ranged .uint32) := none
  deriving DecidableEq

namespace Book

def table : TableRef := { name := "reprise_book" }

def idColumn : Column where
  ref := { name := "id", table := table.name }
  fieldType := .autoField
  primaryKey := true

def titleColumn : Column where
  ref := { name := "title", table := table.name }
  fieldType := .char 200

def authorColumn : Column where
  ref := { name := "author_id", table := table.name }
  fieldType := .foreignKey Author.idColumn.fieldType
  references := some Author.idColumn.ref

def yearColumn : Column where
  ref := { name := "year", table := table.name }
  fieldType := .positiveInteger
  nullable := true

def model : Model := ⟨table, [idColumn, titleColumn, authorColumn, yearColumn], idColumn⟩

/-- A book with a key, a title, the key of its author, and a year. -/
def known (id : Int) (title : String) (author : Int) (year : Int) : Book where
  id := some (Ranged.clamp .int32 id)
  title := title
  author := Ranged.clamp .int32 author
  year := some (Ranged.clamp .uint32 year)

def key (b : Book) : Value :=
  .int .int32 b.id

/-- The values to be stored; the database makes a key where there is none. -/
def row (b : Book) : NamedRow :=
  (if b.id.isSome then [("id", b.key)] else []) ++
    [("title", .varchar (some b.title)), ("author_id", .int .int32 (some b.author)),
      ("year", .int .uint32 b.year)]

def read : RowReader Book :=
  LabeledRow.reading do
    let id ← LabeledRow.take (.optional (.int .int32)) "id"
    let title ← LabeledRow.take .text "title"
    let author ← LabeledRow.take (.int .int32) "author_id"
    let year ← LabeledRow.take (.optional (.int .uint32)) "year"
    return { id := id, title := title, author := author, year := year }

/-- The books that a library starts with. -/
def fixtures : List Book := [
  known 1 "Voices from Chernobyl" 1 1997,
  known 2 "The Unwomanly Face of War" 1 1985,
  known 3 "Flights" 2 2007,
  known 4 "The Books of Jacob" 2 2014,
  known 5 "Never Let Me Go" 3 2005,
  known 6 "The Remains of the Day" 3 1989,
  known 7 "The Years" 4 2008]

end Book

end PreparedSql.Library
