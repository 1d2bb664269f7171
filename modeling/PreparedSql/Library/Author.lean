import PreparedSql.Session.Row

/-! Authors, a model of a library: a table, its columns, and how an author is
read from a row and stored in one. -/
namespace PreparedSql.Library

/-- An author without a key is not stored yet. -/
structure Author where
  id : Option (Ranged .int32)
  name : String
  email : Option String := none
  deriving DecidableEq

namespace Author

def table : TableRef := { name := "reprise_author" }

def idColumn : Column where
  ref := { name := "id", table := table.name }
  fieldType := .autoField
  primaryKey := true

def nameColumn : Column where
  ref := { name := "name", table := table.name }
  fieldType := .char 100
  unique := true

def emailColumn : Column where
  ref := { name := "email", table := table.name }
  fieldType := .email 254
  nullable := true

def model : Model := ⟨table, [idColumn, nameColumn, emailColumn], idColumn⟩

/-- An author with a key and a name. -/
def known (id : Int) (name : String) : Author :=
  { id := some (Ranged.clamp .int32 id), name := name }

def key (a : Author) : Value :=
  .int .int32 a.id

/-- The values to be stored; the database makes a key where there is none. -/
def row (a : Author) : NamedRow :=
  (if a.id.isSome then [("id", a.key)] else []) ++
    [("name", .varchar (some a.name)), ("email", .varchar a.email)]

def read : RowReader Author :=
  LabeledRow.reading do
    let id ← LabeledRow.take (.optional (.int .int32)) "id"
    let name ← LabeledRow.take .text "name"
    let email ← LabeledRow.take (.optional .text) "email"
    return { id := id, name := name, email := email }

/-- The authors that a library starts with. -/
def fixtures : List Author := [
  known 1 "Svetlana Alexievich",
  known 2 "Olga Tokarczuk",
  known 3 "Kazuo Ishiguro",
  known 4 "Annie Ernaux"]

end Author

end PreparedSql.Library
