import PreparedSql.Failure.Basic
import PreparedSql.Net.Ip
import PreparedSql.Net.Percent

/-! Absolute URLs. Reading settles the scheme first, for it decides what the
rest may look like: the schemes of the web need a host, others may have an
authority, a path, or a plain text behind the colon. The scheme of a URL that says
where a database is has to name the driver. -/
namespace PreparedSql

/-- The parts of a URL, escaped as they stand in its written form. -/
structure Url where
  scheme : String
  username : String := ""
  password : Option String := none
  host : Option String := none
  /-- Absent also when it is the one that the scheme implies. -/
  port : Option Nat := none
  path : String := ""
  query : Option String := none
  /-- The scheme is followed by plain text and not by a path. -/
  opaquePath : Bool := false
  deriving DecidableEq, Repr

namespace Url

/-- What a scheme asks of the rest. -/
inductive SchemeKind where
  | web | file | other
  deriving DecidableEq

def kindOf (scheme : String) : SchemeKind :=
  if scheme = "file" then .file
  else if ["http", "https", "ws", "wss", "ftp"].contains scheme then .web
  else .other

def SchemeKind.isSpecial : SchemeKind → Bool
  | .other => false
  | _ => true

/-- The port that a scheme implies. -/
def impliedPort (scheme : String) : Option Nat :=
  match scheme with
  | "http" | "ws" => some 80
  | "https" | "wss" => some 443
  | "ftp" => some 21
  | _ => none

def inFragmentSet (c : Char) : Bool :=
  Net.isControl c || " \"<>\x60".toList.contains c

def inPathSet (c : Char) : Bool :=
  inFragmentSet c || "#?\x7b\x7d".toList.contains c

def inUserSet (c : Char) : Bool :=
  inPathSet c || "/:;=@[\\]^|".toList.contains c

def inQuerySet (special : Bool) (c : Char) : Bool :=
  Net.isControl c || " \"#<>".toList.contains c || (special && c == '\'')

/-- Characters that no host may hold. -/
def isForbiddenHostChar (c : Char) : Bool :=
  c.toNat == 0 || "\t\n\r #/:<>?@[\\]^|".toList.contains c

/-- Drops blanks and controls at both ends, and line breaks and tabs anywhere. -/
def cleaned (s : String) : List Char :=
  let edge (c : Char) : Bool := c.toNat ≤ 0x20
  let cs := ((s.toList.dropWhile edge).reverse.dropWhile edge).reverse
  cs.filter fun c => c != '\t' && c != '\n' && c != '\r'

/-- A letter and then letters, digits, plus, hyphen and point, up to a colon. -/
def scheme? (cs : List Char) : Option (String × List Char) :=
  let run := cs.takeWhile fun c => c.isAlphanum || c == '+' || c == '-' || c == '.'
  match run, cs.drop run.length with
  | first :: _, ':' :: rest =>
    if first.isAlpha then some (String.ofList (run.map Char.toLower), rest) else none
  | _, _ => none

/-- A number of an address of version four: decimal, octal or hexadecimal. -/
def addressNumber? (cs : List Char) : Option Nat :=
  let (base, digits) := match cs with
    | '0' :: 'x' :: rest => (16, rest)
    | '0' :: 'X' :: rest => (16, rest)
    | '0' :: d :: rest => (8, d :: rest)
    | _ => (10, cs)
  if cs.isEmpty then none
  else digits.foldlM (fun n c => do
    let d ← Text.hexValue? c
    if d < base then some (base * n + d) else none) 0

/-- Splits at the points. -/
def labels (cs : List Char) : List (List Char) :=
  cs.foldr
    (fun c parts => match parts with
      | part :: rest => if c = '.' then [] :: part :: rest else (c :: part) :: rest
      | [] => [[c]])
    [[]]

/-- The labels, without an empty one behind a point at the end. -/
def addressParts (cs : List Char) : List (List Char) :=
  let parts := labels cs
  if parts.getLast? = some [] ∧ 1 < parts.length then parts.dropLast else parts

/-- The last label is a number, so the whole has to be an address. -/
def endsInNumber (cs : List Char) : Bool :=
  match (addressParts cs).getLast? with
  | some last => (!last.isEmpty && last.all Char.isDigit) ||
      (last.take 2 == ['0', 'x'] || last.take 2 == ['0', 'X']) && (addressNumber? last).isSome
  | none => false

/-- Up to four numbers; the last fills the bytes that are left. -/
def addressV4? (cs : List Char) : Option (List Nat) := do
  let numbers ← (addressParts cs).mapM addressNumber?
  let last ← numbers.getLast?
  let front := numbers.dropLast
  if 4 < numbers.length ∨ front.any (255 < ·) ∨ Nat.pow 256 (5 - numbers.length) ≤ last then none
  else
    let value := (List.range front.length).foldl
      (fun n i => n + front.getD i 0 * Nat.pow 256 (3 - i)) last
    return [value / 16777216 % 256, value / 65536 % 256, value / 256 % 256, value % 256]

/-- An address of version six as a host. All its groups are hexadecimal. -/
def bracketed (groups : List Nat) : String :=
  "[" ++ IpAddress.shortGroupsText groups ++ "]"

/-- The host of a web URL: an address in brackets, an address, or a name. -/
def webHost? (cs : List Char) : Option String :=
  if cs.head? = some '[' then
    if cs.getLast? = some ']' then
      (IpAddress.v6? (cs.drop 1).dropLast).map bracketed
    else none
  else do
    let name ← Net.percentDecodeText? (String.ofList cs)
    let name := name.toList.map Char.toLower
    if name.isEmpty ∨ name.any (fun c => isForbiddenHostChar c || c.toNat < 0x20 || c == '%' ||
        c.toNat == 0x7F) then none
    else if endsInNumber name then (addressV4? name).map IpAddress.v4Text
    else some (String.ofList name)

/-- The host of another URL; a name may be empty. -/
def otherHost? (cs : List Char) : Option String :=
  if cs.head? = some '[' then
    if cs.getLast? = some ']' then
      (IpAddress.v6? (cs.drop 1).dropLast).map bracketed
    else none
  else if cs.any isForbiddenHostChar then none
  else some (String.ofList (Net.percentEncode Net.isControl cs))

/-- Characters that end an authority. -/
def endsAuthority (special : Bool) (c : Char) : Bool :=
  c == '/' || c == '?' || c == '#' || (special && c == '\\')

/-- The characters of the host: up to a colon outside brackets. -/
def hostRun (special : Bool) : Bool → List Char → List Char
  | _, [] => []
  | bracket, c :: rest =>
    if endsAuthority special c || (c == ':' && !bracket) then []
    else c :: hostRun special (if c = '[' then true else if c = ']' then false else bracket) rest

/-- The digits of a port, which only the end of the authority may follow. -/
def port? (cs : List Char) : Option (Option Nat × List Char) :=
  let run := cs.takeWhile Char.isDigit
  let rest := cs.drop run.length
  let n := Text.digitsValue run
  let ended := match rest with
    | [] => true
    | c :: _ => endsAuthority true c
  if !ended ∨ 65535 < n then none
  else some (if run.isEmpty then none else some n, rest)

/-- Appends a segment, where one point stays in place and two go back. -/
def pushSegment (path : List (List Char)) (segment : List Char) (last : Bool) : List (List Char) :=
  let plain := (String.ofList segment).toLower
  if ["..", "%2e%2e", "%2e.", ".%2e"].contains plain then
    let shorter := path.dropLast
    if last then shorter ++ [[]] else shorter
  else if [".", "%2e"].contains plain then if last then path ++ [[]] else path
  else path ++ [segment]

/-- Splits a path at its slashes. -/
def segments (special : Bool) (cs : List Char) : List (List Char) :=
  cs.foldr
    (fun c parts => match parts with
      | part :: rest =>
        if c = '/' ∨ (special ∧ c = '\\') then [] :: part :: rest else (c :: part) :: rest
      | [] => [[c]])
    [[]]

/-- The path of a URL, from its first slash on. -/
def pathText (special : Bool) (cs : List Char) : String :=
  let parts := (segments special cs).map (Net.percentEncode inPathSet)
  let count := parts.length
  let path := (List.range count).foldl
    (fun path i => pushSegment path (parts.getD i []) (i + 1 == count)) []
  String.ofList (path.flatMap ('/' :: ·))

/-- Splits off the fragment, which is dropped, and the query. -/
def splitQuery (special : Bool) (cs : List Char) : List Char × Option String :=
  let body := cs.takeWhile (· != '#')
  let front := body.takeWhile (· != '?')
  match body.drop front.length with
  | _ :: query => (front, some (String.ofList (Net.percentEncode (inQuerySet special) query)))
  | [] => (front, none)

/-- The text behind the authority: a path, then perhaps a query. -/
def withPath (u : Url) (special : Bool) (cs : List Char) : Url :=
  let (front, query) := splitQuery special cs
  let path := match front with
    | [] => if special then "/" else ""
    | c :: rest => if c = '/' ∨ (special ∧ c = '\\') then pathText special rest
      else pathText special (c :: rest)
  { u with path, query }

/-- User name and password before the last at sign of the authority. -/
def userInfo (cs : List Char) : String × Option String :=
  let name := cs.takeWhile (· != ':')
  let encode (part : List Char) := String.ofList (Net.percentEncode inUserSet part)
  match cs.drop name.length with
  | _ :: [] => (encode name, none)
  | _ :: password => (encode name, some (encode password))
  | [] => (encode name, none)

/-- User, host and port, then the path. -/
def authority? (scheme : String) (kind : SchemeKind) (cs : List Char) : Option Url := do
  let special := kind.isSpecial
  let run := cs.takeWhile (!endsAuthority special ·)
  let back := run.reverse.takeWhile (· != '@')
  let hasUser := back.length < run.length
  let user := run.take (run.length - back.length - 1)
  let rest := if hasUser then cs.drop (user.length + 1) else cs
  let (username, password) := if hasUser then userInfo user else ("", none)
  let nameChars := hostRun special false rest
  let after := rest.drop nameChars.length
  if nameChars.isEmpty ∧ (special ∨ after.head? = some ':' ∨ username ≠ "" ∨ password.isSome ∨
      (hasUser ∧ user.isEmpty ∧ !after.isEmpty)) then none
  let host ← if special then webHost? nameChars else otherHost? nameChars
  let (port, after) ← match after with
    | ':' :: digits => port? digits
    | _ => some (none, after)
  let port := if port = impliedPort scheme then none else port
  return withPath { scheme, username, password, port
                    host := if host.isEmpty then none else some host } special after

/-- A file has a host only between two slashes and the path. -/
def file? (cs : List Char) : Option Url :=
  let isSlash (c : Char) : Bool := c == '/' || c == '\\'
  if (cs.take 2).length = 2 ∧ (cs.take 2).all isSlash then
    let name := (cs.drop 2).takeWhile (!endsAuthority true ·)
    let after := cs.drop (2 + name.length)
    if name.isEmpty ∨ (name.length = 2 ∧ name.getLast? = some ':') then
      some (withPath { scheme := "file" } true (cs.drop 2))
    else
      (webHost? name).map fun host =>
        withPath { scheme := "file", host := if host = "localhost" then none else some host } true
          after
  else some (withPath { scheme := "file" } true cs)

/-- Reads a whole text as a URL with a scheme of its own. -/
def ofText? (s : String) : Option Url := do
  let (scheme, rest) ← scheme? (cleaned s)
  match kindOf scheme with
  | .web => authority? scheme .web (rest.dropWhile fun c => c == '/' || c == '\\')
  | .file => file? rest
  | .other =>
    match rest with
    | '/' :: '/' :: more => authority? scheme .other more
    | '/' :: _ => some (withPath { scheme } false rest)
    | _ =>
      let (front, query) := splitQuery false rest
      some { scheme, path := String.ofList (Net.percentEncode Net.isControl front), query
             opaquePath := true }

end Url

/-- A scheme that a driver answers to besides its own name. -/
def otherScheme (driver : String) : Option String :=
  match driver with
  | "postgres" => some "postgresql"
  | "mysql" => some "mariadb"
  | _ => none

/-- The URL behind its escapes, for the driver that its scheme names. -/
def connectionUrl (driver url : String) : Except Failure Url :=
  match Net.percentDecodeText? url with
  | none => .error (.during (.decodingUrl url) .foreign)
  | some decoded =>
    match Url.ofText? decoded with
    | none => .error (.during (.parsingUrl url) .foreign)
    | some u =>
      if u.scheme = driver ∨ otherScheme driver = some u.scheme then .ok u
      else .error (.foreignScheme url driver)

end PreparedSql
