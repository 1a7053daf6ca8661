import DueTasks.Report.Datum

/-! Structured values as CBOR: every item starts with a head that holds its kind and a number, in
the fewest bytes that hold the number.
-/

namespace DueTasks.Cbor

/-- A number in a given count of bytes, most significant first. -/
def bigEndian (count n : Nat) : List UInt8 :=
  (List.range count).reverse.map fun place => UInt8.ofNat (n >>> (8 * place))

/-- The head of an item of a kind. -/
def head (kind n : Nat) : List UInt8 :=
  let first (low : Nat) := UInt8.ofNat (kind * 32 + low)
  if n < 24 then [first n]
  else if n < UInt8.size then first 24 :: bigEndian 1 n
  else if n < UInt16.size then first 25 :: bigEndian 2 n
  else if n < UInt32.size then first 26 :: bigEndian 4 n
  else first 27 :: bigEndian 8 n

def encodeText (text : String) : List UInt8 :=
  let bytes := text.toUTF8.toList
  head 3 bytes.length ++ bytes

mutual

def encode : Datum → List UInt8
  | .null => [0xf6]
  | .bool value => [if value then 0xf5 else 0xf4]
  | .int value => if 0 ≤ value then head 0 value.toNat else head 1 (-1 - value).toNat
  | .text value => encodeText value
  | .list items => head 4 items.length ++ encodeItems items
  | .record fields => head 5 fields.length ++ encodeFields fields

def encodeItems : List Datum → List UInt8
  | [] => []
  | item :: items => encode item ++ encodeItems items

/-- The fields of a record. -/
def encodeFields : List (String × Datum) → List UInt8
  | [] => []
  | (name, value) :: fields => encodeText name ++ encode value ++ encodeFields fields

end

end DueTasks.Cbor
