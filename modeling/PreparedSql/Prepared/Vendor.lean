import PreparedSql.Digest
import PreparedSql.Failure.Basic
import PreparedSql.Sql.Literal
import PreparedSql.Text.Hex

/-! The databases whose prepared statements are known: how each one prepares a
statement, executes it, and is handed the arguments. The name of a statement is
made of the table and a digest of the text, so that equal texts on one table
share a name. -/
namespace PreparedSql

/-- Characters of the table that a name keeps. -/
def keptTableChars : Nat := 38

/-- Hexadecimal digits of the digest that a name keeps. -/
def keptDigits : Nat := 24

/-- A character as it may stand in a name. -/
def nameChar (c : Char) : Char :=
  if c.isAlphanum then c.toLower else '_'

/-- The front of a name, which does not begin with a digit. -/
def tableChars (table : String) : List Char :=
  let cs := (table.toList.map nameChar).take keptTableChars
  match cs with
  | [] => ['s']
  | c :: _ => if c.isDigit then 's' :: cs else cs

/-- The name of the statement with this text. -/
def statementName (table body : String) : String :=
  String.ofList (tableChars table) ++ "_"
    ++ String.ofList ((Text.hexEncode (Digest.sha256 body.toUTF8.toList)).toList.take keptDigits)

inductive Vendor where
  | postgres
  | mysql
  deriving DecidableEq, Repr

namespace Vendor

def name : Vendor → String
  | postgres => "postgres"
  | mysql => "mysql"

/-- The database that a name stands for, whatever its case. -/
def ofName (name : String) : Except Failure Vendor :=
  let plain := name.toLower
  if plain = "postgres" ∨ plain = "postgresql" then .ok postgres
  else if plain = "mysql" ∨ plain = "mariadb" then .ok mysql
  else .error (.unsupportedVendor name)

def flavor : Vendor → Flavor
  | postgres => .postgres
  | mysql => .mysql

/-- A numbered placeholder may stand in several places of a statement; an
anonymous one takes an argument of its own each time. -/
def numbersPlaceholders : Vendor → Bool
  | postgres => true
  | mysql => false

/-- The placeholder for the argument at a position, counted from zero. -/
def placeholder : Vendor → Nat → String
  | postgres, position => "$" ++ toString (position + 1)
  | mysql, _ => "?"

/-- The arguments have to be put into session variables before execution. -/
def stagesArguments : Vendor → Bool
  | postgres => false
  | mysql => true

/-- The session variable for the argument at a position. -/
def variableName (position : Nat) : String :=
  "@p" ++ toString position

/-- Names a statement to the server, for arguments of the types. -/
def prepare (v : Vendor) (name : String) (types : List FieldType) (body : String) : String :=
  match v with
  | postgres =>
    let types := if types.isEmpty then "" else
      " (" ++ String.intercalate ", " (types.map Flavor.postgres.bindType) ++ ")"
    "PREPARE " ++ name ++ types ++ " AS " ++ body ++ ";"
  | mysql => "PREPARE " ++ name ++ " FROM " ++ Flavor.mysql.string body ++ ";"

/-- Runs a named statement. The literals of the arguments stand in the text, or in
session variables. -/
def execute (v : Vendor) (name : String) (literals : List String) : String :=
  let arguments := match v with
    | postgres =>
      if literals.isEmpty then "" else "(" ++ String.intercalate ", " literals ++ ")"
    | mysql =>
      if literals.isEmpty then "" else
        " USING " ++ String.intercalate ", " ((List.range literals.length).map variableName)
  "EXECUTE " ++ name ++ arguments ++ ";"

/-- Assignments of session variables. -/
def assign (literals : List String) : Option String :=
  if literals.isEmpty then none
  else
    some ("SET " ++ String.intercalate ", "
      (literals.mapIdx fun i literal => variableName i ++ " = " ++ literal) ++ ";")

/-- The statement that stages the literals of the arguments, where there is something to stage. -/
def setup? : Vendor → List String → Option String
  | postgres, _ => none
  | mysql, literals => assign literals

/-- The statement that takes back as many staged arguments. -/
def cleanup? : Vendor → Nat → Option String
  | postgres, _ => none
  | mysql, count => assign (List.replicate count "NULL")

end Vendor

end PreparedSql
