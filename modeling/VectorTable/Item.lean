import VectorTable.Error
import VectorTable.Bytes.Order
import VectorTable.Text.Quoted

/-! Items are what a table maps to slots. The table only compares them; their
byte form is used when a table is persisted, and their debug form in messages. -/
namespace VectorTable

class Item (α : Type) where
  encode : α → List UInt8
  decode : List UInt8 → Except ItemFault α
  debug : α → String

/-- The bytes of a word of known width, or the complaint that names its type. -/
def Item.decodeWord {α : Type} (width : Nat) (typeName : String) (ofNat : Nat → α)
    (bytes : List UInt8) : Except ItemFault α :=
  if bytes.length = width then .ok (ofNat (ofBigEndian bytes))
  else .error (.width width typeName bytes.length)

instance : Item String where
  encode := Utf8.encode
  decode bytes := (Utf8.decode bytes).mapError .notUtf8
  debug := Quoted.quote

instance : Item UInt32 where
  encode n := bigEndian 4 n.toNat
  decode := Item.decodeWord 4 "u32" UInt32.ofNat
  debug n := toString n.toNat

instance : Item UInt64 where
  encode n := bigEndian 8 n.toNat
  decode := Item.decodeWord 8 "u64" UInt64.ofNat
  debug n := toString n.toNat

instance : Item Int32 where
  encode n := bigEndian 4 n.toUInt32.toNat
  decode := Item.decodeWord 4 "i32" Int32.ofNat
  debug n := toString n.toInt

instance : Item Int64 where
  encode n := bigEndian 8 n.toUInt64.toNat
  decode := Item.decodeWord 8 "i64" Int64.ofNat
  debug n := toString n.toInt

end VectorTable
