import PreparedSql.Text.Basic
import PreparedSql.Text.Hex

/-! Internet addresses: four bytes with points between, or eight groups of
sixteen bits with colons between. -/
namespace PreparedSql

/-- An address of version four or six. -/
inductive IpAddress where
  | v4 (bytes : List Nat)
  | v6 (groups : List Nat)
  deriving DecidableEq, Repr

namespace IpAddress

/-- Decimal digits below 256 from the front, with no leading zero. -/
def byte? (cs : List Char) : Option (Nat × List Char) :=
  let run := cs.takeWhile Char.isDigit
  let n := Text.digitsValue run
  if run.isEmpty ∨ 3 < run.length ∨ (run.head? = some '0' ∧ 1 < run.length) ∨ 255 < n then none
  else some (n, cs.drop run.length)

/-- Four bytes with points between. -/
def bytes? (cs : List Char) : Option (List Nat × List Char) := do
  let (a, cs) ← byte? cs
  let cs ← dropMark? '.' cs
  let (b, cs) ← byte? cs
  let cs ← dropMark? '.' cs
  let (c, cs) ← byte? cs
  let cs ← dropMark? '.' cs
  let (d, cs) ← byte? cs
  return ([a, b, c, d], cs)
where
  dropMark? (mark : Char) (cs : List Char) : Option (List Char) :=
    if cs.head? = some mark then some cs.tail else none

/-- One to four hexadecimal digits. -/
def group? (cs : List Char) : Option (Nat × List Char) :=
  let run := cs.takeWhile Text.isHexDigit
  if run.isEmpty ∨ 4 < run.length then none
  else some (run.foldl (fun n c => 16 * n + (Text.hexValue? c).getD 0) 0, cs.drop run.length)

/-- Up to `limit` groups with colons between; the last two may be written as
four bytes. The flag says that they were. -/
def readGroups : Nat → Bool → List Char → List Nat × Bool × List Char
  | 0, _, cs => ([], false, cs)
  | limit + 1, first, cs =>
    let body? := if first then some cs else if cs.head? = some ':' then some cs.tail else none
    match body? with
    | none => ([], false, cs)
    | some body =>
      match if 1 ≤ limit then bytes? body else none with
      | some ([a, b, c, d], rest) => ([256 * a + b, 256 * c + d], true, rest)
      | _ =>
        match group? body with
        | none => ([], false, cs)
        | some (g, rest) =>
          let (gs, mapped, rest) := readGroups limit false rest
          (g :: gs, mapped, rest)

/-- Eight groups, or fewer with two colons in place of the missing zeros. -/
def v6? (cs : List Char) : Option (List Nat) :=
  let (front, mapped, rest) := readGroups 8 true cs
  if front.length = 8 then if rest.isEmpty then some front else none
  else if mapped then none
  else match rest with
    | ':' :: ':' :: rest =>
      let limit := 8 - (front.length + 1)
      let (back, _, rest) := readGroups limit true rest
      if rest.isEmpty then
        some (front ++ List.replicate (8 - front.length - back.length) 0 ++ back)
      else none
    | _ => none

/-- Reads a whole text as an address. -/
def ofText? (s : String) : Option IpAddress :=
  match bytes? s.toList with
  | some (bytes, []) => some (.v4 bytes)
  | _ => (v6? s.toList).map .v6

def v4Text (bytes : List Nat) : String :=
  String.intercalate "." (bytes.map toString)

/-- Length of the run of zeros at the front. -/
def zeroRun (groups : List Nat) : Nat :=
  (groups.takeWhile (· == 0)).length

/-- Start and length of the first longest run of zeros. -/
def longestRun (groups : List Nat) : Nat × Nat :=
  (List.range groups.length).foldl
    (fun best i =>
      let n := zeroRun (groups.drop i)
      if best.2 < n then (i, n) else best)
    (0, 0)

def groupsText (groups : List Nat) : String :=
  String.intercalate ":" (groups.map Text.hexNat)

/-- The first longest run of at least two zero groups becomes two colons. -/
def shortGroupsText (groups : List Nat) : String :=
  let (start, length) := longestRun groups
  if 1 < length then
    groupsText (groups.take start) ++ "::" ++ groupsText (groups.drop (start + length))
  else groupsText groups

/-- An address that carries one of version four ends in its bytes. -/
def v6Text (groups : List Nat) : String :=
  match groups with
  | [0, 0, 0, 0, 0, 0xffff, a, b] => "::ffff:" ++ v4Text [a / 256, a % 256, b / 256, b % 256]
  | _ => shortGroupsText groups

def toText : IpAddress → String
  | .v4 bytes => v4Text bytes
  | .v6 groups => v6Text groups

end IpAddress

end PreparedSql
