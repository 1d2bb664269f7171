import PreparedSql.Exchange.Data
import PreparedSql.Native.Reader
import PreparedSql.Value.Inspect

/-! Values as plain data: a record with the kind of the value and what it
holds. Wide numbers are written by their digits, binary numbers by their bits,
and bytes in hexadecimal; days and times are lists of their parts. -/
namespace PreparedSql

instance {k : IntKind} : ToData (Ranged k) where
  toData n := if k.width = 64 then .text (toString n.value) else .number n.value

instance {k : IntKind} : OfData (Ranged k) where
  ofData? d := do Ranged.ofInt? k (← ofData? d)

instance {f : BinaryFormat} : ToData (Binary f) where
  toData x :=
    match x.bits? with
    | none => .text "nan"
    | some n =>
      let digits := Text.hexNat n
      .text (String.ofList (List.replicate (f.width / 4 - digits.length) '0') ++ digits)

instance {f : BinaryFormat} : OfData (Binary f) where
  ofData?
    | .text "nan" => some .nan
    | .text s => do
      let bits ← s.toList.foldlM (fun n c => (Text.hexValue? c).map (16 * n + ·)) 0
      return Binary.ofBits bits
    | _ => none

instance : ToData Decimal := ⟨fun d => .text d.toText⟩

instance : OfData Decimal where
  ofData? d := do (Native.parse .decimal (← ofData? d)).toOption

instance : ToData (List UInt8) := ⟨fun b => .text (Text.hexEncode b)⟩

instance : OfData (List UInt8) where
  ofData? d := do Text.hexDecode (← ofData? d)

instance : ToData Uuid := ⟨fun u => .text u.toText⟩

instance : OfData Uuid where
  ofData? d := do Uuid.ofText? (← ofData? d)

instance : ToItems Date := ⟨fun d => [toData d.year, toData d.month, toData d.day]⟩

instance : OfItems Date where
  ofItems? ds := do
    let (year, month, day) : Int × Nat × Nat ← OfItems.ofItems? ds
    Date.of? year month day

instance : ToItems TimeOfDay where
  toItems t := [toData t.hour, toData t.minute, toData t.second, toData t.nanosecond]

instance : OfItems TimeOfDay where
  ofItems? ds := do
    let (hour, minute, second, nanosecond) : Nat × Nat × Nat × Nat ← OfItems.ofItems? ds
    TimeOfDay.of? hour minute second nanosecond

instance : ToItems Moment where
  toItems m := ToItems.toItems m.date ++ ToItems.toItems m.time

instance : OfItems Moment where
  ofItems? ds := do
    return ⟨← OfItems.ofItems? (ds.take 3), ← OfItems.ofItems? (ds.drop 3)⟩

instance : ToItems ZonedMoment where
  toItems z := ToItems.toItems z.moment ++ [toData z.offset]

instance : OfItems ZonedMoment where
  ofItems? ds := do return ⟨← OfItems.ofItems? (ds.take 7), ← OfItems.ofItems? (ds.drop 7)⟩

/-- What is written as items is a list of them. -/
instance (priority := low) {α : Type} [ToItems α] : ToData α :=
  ⟨fun x => .list (ToItems.toItems x)⟩

instance (priority := low) {α : Type} [OfItems α] : OfData α where
  ofData?
    | .list items => OfItems.ofItems? items
    | _ => none

namespace IntKind

def all : List IntKind :=
  [int8, int16, int32, int64, uint8, uint16, uint32, uint64]

def ofLabel? (label : String) : Option IntKind :=
  all.find? (·.label == label)

end IntKind

namespace Value

mutual

def toPlain : Value → Data
  | null => .text "Null"
  | boolean v => .tagged "Boolean" v
  | int k v => .tagged k.label v
  | single v => .tagged "Float32" v
  | double v => .tagged "Float64" v
  | decimal v p s => .tagged "Decimal" (v, p, s)
  | varchar v => .tagged "Varchar" v
  | blob v => .tagged "Blob" v
  | date v => .tagged "Date" v
  | time v => .tagged "Time" v
  | timestamp v => .tagged "Timestamp" v
  | zoned v => .tagged "TimestampTz" v
  | uuid v => .tagged "Uuid" v
  | list (some items) element => .tagged "List" [Data.list (allToPlain items), toPlain element]
  | list none element => .tagged "List" [Data.null, toPlain element]
  | unknown v => .tagged "Unknown" v

def allToPlain : List Value → List Data
  | [] => []
  | v :: vs => toPlain v :: allToPlain vs

end

/-- A value that holds no other values. -/
def ofPlainAtom? (label : String) (d : Data) : Option Value :=
  match IntKind.ofLabel? label, label with
  | some k, _ => (ofData? d).map (int k)
  | none, "Boolean" => (ofData? d).map boolean
  | none, "Float32" => (ofData? d).map single
  | none, "Float64" => (ofData? d).map double
  | none, "Decimal" => (ofData? d).map fun (v, p, s) => decimal v p s
  | none, "Varchar" => (ofData? d).map varchar
  | none, "Blob" => (ofData? d).map blob
  | none, "Date" => (ofData? d).map date
  | none, "Time" => (ofData? d).map time
  | none, "Timestamp" => (ofData? d).map timestamp
  | none, "TimestampTz" => (ofData? d).map zoned
  | none, "Uuid" => (ofData? d).map uuid
  | none, "Unknown" => (ofData? d).map unknown
  | none, _ => none

mutual

def ofPlain? : Data → Option Value
  | .text "Null" => some null
  | .record [("List", .list [.list items, element])] => do
    return list (some (← allOfPlain? items)) (← ofPlain? element)
  | .record [("List", .list [.null, element])] => do return list none (← ofPlain? element)
  | .record [(label, d)] => ofPlainAtom? label d
  | _ => none

def allOfPlain? : List Data → Option (List Value)
  | [] => some []
  | d :: ds => do return (← ofPlain? d) :: (← allOfPlain? ds)

end

end Value

instance : ToData Value := ⟨Value.toPlain⟩

instance : OfData Value := ⟨Value.ofPlain?⟩

end PreparedSql
