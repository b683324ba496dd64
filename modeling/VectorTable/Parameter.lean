import VectorTable.Shape
import VectorTable.Tensor

/-! A named matrix as a file holds it: a marker, a version, the name, the data
type, the shape, the number of data bytes and the data. The number of bytes is
fixed by the type and the shape and is written all the same; reading checks that
the two agree before it takes the data. -/
namespace VectorTable.Parameter

def marker : UInt16 := 0x50

/-- Stands where a parameter was saved without ever being filled. -/
def emptyMarker : UInt16 := 0x4E

def version : UInt8 := 1

def write (name : String) (matrix : Tensor) : Writer Unit :=
  match matrix.elementType.dataType? with
  | none => Writer.fail (.configuration (.unsavableCells matrix.elementType.code))
  | some type => do
    Wire.writeU16 marker
    Wire.writeU8 version
    Wire.writeUtf name
    Wire.writeUtf type.name
    (Shape.ofSizes matrix.dims).write
    Wire.writeI64 (Int64.ofNat matrix.data.length)
    Writer.put matrix.data

/-- The sides of a matrix, if a shape is one. -/
def sides? (shape : Shape) : Option (Nat × Nat) :=
  match shape.dims with
  | [rows, cols] =>
    if 0 ≤ rows ∧ 0 ≤ cols then some (rows.toNatClampNeg, cols.toNatClampNeg) else none
  | _ => none

/-- The number of bytes of a matrix, if a machine word can hold it. -/
def byteCount? (type : DataType) (rows cols : Nat) : Option Nat :=
  if rows * cols < 2 ^ 64 ∧ rows * cols * type.width < 2 ^ 64 then some (rows * cols * type.width)
  else none

def readMarker : Reader Unit := do
  let found ← Wire.readU16 "parameter marker"
  if found = marker then pure ()
  else if found = emptyMarker then Reader.fail (.malformed .notInitialized)
  else Reader.fail (.malformed (.marker found))

def readVersion : Reader Unit := do
  let found ← Wire.readU8 "parameter version"
  if found = version then pure () else Reader.fail (.malformed (.parameterVersion found))

/-- The data type whose name comes next. -/
def readDataType (what : String) : Reader DataType := do
  let name ← Wire.readUtf what
  Reader.ofExcept ((DataType.parse name).mapError .malformed)

/-- The data of a matrix whose type and shape are known. -/
def readData (type : DataType) (shape : Shape) : Reader Tensor :=
  match sides? shape with
  | none => Reader.fail (.malformed (.notMatrix shape.text))
  | some (rows, cols) =>
    match byteCount? type rows cols with
    | none => Reader.fail (.malformed (.matrixSize shape.text))
    | some needed => do
      let declared ← Wire.readI64 "matrix byte length"
      if declared.toInt ≠ needed then
        Reader.fail (.malformed (.declaredSize shape.text type.name needed declared.toInt))
      else
        let data ← Reader.upTo needed
        match Tensor.ofBytes? (.storable type) [rows, cols] data with
        | some matrix => pure matrix
        | none => Reader.fail (.malformed (.matrixTruncated data.length needed))

def read : Reader (String × Tensor) := do
  readMarker
  readVersion
  let name ← Wire.readUtf "parameter name"
  let type ← readDataType "matrix data type"
  let shape ← Shape.read
  let matrix ← readData type shape
  pure (name, matrix)

end VectorTable.Parameter
