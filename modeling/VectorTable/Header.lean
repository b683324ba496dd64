import VectorTable.Parameter
import VectorTable.Index

/-! What a table file says before its matrix. The four versions of the format
differ only here: the second adds the input shapes, the third and the fourth add
the data type, the gradient flag and the items with their slots, and the third
alone tells whether slot 0 was already reserved. -/
namespace VectorTable

def currentVersion : UInt8 := 4

structure Header (α : Type) where
  version : UInt8
  inputShapes : Option (List Shape) := none
  zeroReserved : Option Bool := none
  sparseGrad : Option Bool := none
  dataType : Option DataType := none
  /-- The entries as stored, before any migration. -/
  entries : Option (List (α × Slot)) := none
  deriving DecidableEq, Repr

namespace Header

variable {α : Type} [Item α]

def readEntry : Reader (α × Slot) := do
  let len ← Wire.readLen "encoded item length"
  let bytes ← Wire.readBytes len "encoded item"
  let item ← Reader.ofExcept ((Item.decode bytes).mapError .itemCodec)
  let raw ← Wire.readI32 "slot"
  if raw < 0 then Reader.fail (.malformed (.negativeSlot raw.toInt (Item.debug item)))
  else pure (item, raw.toUInt32)

def readEntries : Reader (List (α × Slot)) := do
  let count ← Wire.readLen "explicit item count"
  Reader.times count readEntry

/-- The fields that versions 3 and 4 have in common after their flags. -/
def readBody (version : UInt8) (shapes : List Shape) (zeroReserved : Option Bool) :
    Reader (Header α) := do
  let sparseGrad ← Wire.readBool "sparse_grad"
  let dataType ← Parameter.readDataType "data type"
  let entries ← readEntries
  pure ⟨version, some shapes, zeroReserved, some sparseGrad, some dataType, some entries⟩

def read : Reader (Header α) := do
  let version ← Wire.readU8 "version"
  if version = 4 then do
    let shapes ← Shape.readAll
    readBody version shapes none
  else if version = 3 then do
    let shapes ← Shape.readAll
    let zeroReserved ← Wire.readBool "zero-reserved flag"
    readBody version shapes (some zeroReserved)
  else if version = 2 then do
    let shapes ← Shape.readAll
    pure { version, inputShapes := some shapes }
  else if version = 1 then pure { version }
  else Reader.fail (.malformed (.encodingVersion version))

end Header
end VectorTable
