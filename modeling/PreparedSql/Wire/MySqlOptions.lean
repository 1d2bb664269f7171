import PreparedSql.Net.Url

/-! Options of a MySQL connection, as its URL gives them. Every option has a
name and a form of value of its own; others are refused. -/
namespace PreparedSql.MySql

/-- The form of the value of an option. -/
inductive OptionForm where
  | number
  | truth
  | text
  | compression
  deriving DecidableEq

def optionForms : List (String × OptionForm) := [
  ("pool_min", .number), ("pool_max", .number), ("inactive_connection_ttl", .number),
  ("ttl_check_interval", .number), ("abs_conn_ttl", .number), ("abs_conn_ttl_jitter", .number),
  ("conn_ttl", .number), ("tcp_keepalive", .number), ("max_allowed_packet", .number),
  ("wait_timeout", .number), ("stmt_cache_size", .number), ("enable_cleartext_plugin", .truth),
  ("reset_connection", .truth), ("tcp_nodelay", .truth), ("prefer_socket", .truth),
  ("secure_auth", .truth), ("client_found_rows", .truth), ("require_ssl", .truth),
  ("verify_ca", .truth), ("verify_identity", .truth), ("built_in_roots", .truth),
  ("socket", .text), ("compression", .compression)]

def OptionForm.admits (form : OptionForm) (value : String) : Bool :=
  match form with
  | number => !value.isEmpty && value.toList.all Char.isDigit
  | truth => value == "true" || value == "false"
  | text => true
  | compression =>
    ["fast", "on", "true", "best", "0", "1", "2", "3", "4", "5", "6", "7", "8", "9"].contains value

/-- A part of a query without its escapes; a plus is a blank. -/
def unescape (cs : List Char) : String :=
  let s := String.ofList (cs.map fun c => if c = '+' then ' ' else c)
  (Net.percentDecodeText? s).getD s

/-- Names and values between the ampersands. -/
def options (query : String) : List (String × String) :=
  let parts := (query.splitOn "&").filter (· ≠ "")
  parts.map fun part =>
    let name := part.toList.takeWhile (· != '=')
    (unescape name, unescape (part.toList.drop (name.length + 1)))

def isKnown (o : String × String) : Bool :=
  match optionForms.find? (·.1 == o.1) with
  | some (_, form) => form.admits o.2
  | none => false

/-- The number that the last option of a name gives. -/
def number (os : List (String × String)) (name : String) (otherwise : Nat) : Nat :=
  match (os.filter (·.1 == name)).getLast? with
  | some (_, value) => Text.digitsValue value.toList
  | none => otherwise

/-- Fewest and most connections that are kept, unless options say otherwise. -/
def usualPool : Nat × Nat := (10, 100)

/-- The fewest connections to be kept are no more than the most. -/
def poolFits (os : List (String × String)) : Bool :=
  number os "pool_min" usualPool.1 ≤ number os "pool_max" usualPool.2

/-- The URL says where to connect, and how. -/
def isUsable (u : Url) : Bool :=
  let os := (u.query.map options).getD []
  u.scheme == "mysql" && u.host.isSome && !u.opaquePath && os.all isKnown && poolFits os

/-- Checks everything about a connection that can be checked without a server. -/
def checkConnection (url : String) : Except Failure Unit :=
  let refuse (f : Failure) : Except Failure Unit := .error (.during (.connecting url) f)
  match connectionUrl "mysql" url with
  | .error f => refuse f
  | .ok u => if isUsable u then .ok () else refuse .foreign

end PreparedSql.MySql
