/-! Mail addresses and slugs, decided character by character. -/
namespace PreparedSql.Net

/-- Characters of the part before the at sign, besides letters and digits. -/
def localMarks : List Char :=
  ".!#$%&'*+/=?^_\x60\x7b|\x7d~-".toList

def isLocalChar (c : Char) : Bool :=
  c.isAlphanum || localMarks.contains c

/-- At most 63 letters, digits and hyphens, with no hyphen at either end. -/
def isLabel (label : List Char) : Bool :=
  match label.head?, label.getLast? with
  | some first, some last =>
    first.isAlphanum && last.isAlphanum && label.length ≤ 63 &&
      label.all fun c => c.isAlphanum || c == '-'
  | _, _ => false

/-- Splits at every occurrence of the mark. -/
def splitAtMark (mark : Char) : List Char → List (List Char)
  | [] => [[]]
  | c :: cs =>
    if c = mark then [] :: splitAtMark mark cs
    else match splitAtMark mark cs with
      | part :: parts => (c :: part) :: parts
      | [] => [[c]]

/-- A local part, an at sign and a domain of at least two labels. -/
def isEmail (s : String) : Bool :=
  let cs := s.toList
  let part := cs.takeWhile isLocalChar
  match cs.drop part.length with
  | '@' :: domain =>
    let labels := splitAtMark '.' domain
    !part.isEmpty && 2 ≤ labels.length && labels.all isLabel
  | _ => false

/-- Letters, digits, underscores and hyphens, at least one. -/
def isSlug (s : String) : Bool :=
  let cs := s.toList
  !cs.isEmpty && cs.all fun c => c.isAlphanum || c == '-' || c == '_'

end PreparedSql.Net
