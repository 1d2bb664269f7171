import PreparedSql.Text.Hex

/-! Percent escapes: a byte written as a percent sign and two digits. -/
namespace PreparedSql.Net

/-- The bytes of a text with every complete escape replaced by its byte. A
percent sign without two digits behind it stands for itself. -/
def percentDecode : List UInt8 → List UInt8
  | b :: h :: l :: rest =>
    match Text.hexValue? (Char.ofNat h.toNat), Text.hexValue? (Char.ofNat l.toNat) with
    | some high, some low =>
      if b = 0x25 then UInt8.ofNat (16 * high + low) :: percentDecode rest
      else b :: percentDecode (h :: l :: rest)
    | _, _ => b :: percentDecode (h :: l :: rest)
  | bytes => bytes

/-- The text with its escapes decoded, when the bytes are text. -/
def percentDecodeText? (s : String) : Option String :=
  String.fromUTF8? ⟨(percentDecode s.toUTF8.toList).toArray⟩

/-- Two upper case digits behind a percent sign. -/
def percentEscape (b : UInt8) : List Char :=
  '%' :: (Text.hexByte b).map Char.toUpper

/-- A control character or one outside ASCII. -/
def isControl (c : Char) : Bool :=
  c.toNat < 0x20 || 0x7E < c.toNat

/-- Escapes the characters of the set, byte by byte. -/
def percentEncode (escaped : Char → Bool) (cs : List Char) : List Char :=
  cs.flatMap fun c =>
    if escaped c then (String.singleton c).toUTF8.toList.flatMap percentEscape else [c]

end PreparedSql.Net
