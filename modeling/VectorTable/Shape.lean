import VectorTable.Wire
import VectorTable.Text.Utf16

/-! Shapes of inputs, outputs and parameters: a list of dimensions and an
optional layout text with one letter per dimension. A dimension of -1 is known
only when the program runs. Shapes are written with counts in front, and reading
keeps every count within a fixed limit. -/
namespace VectorTable

structure Shape where
  dims : List Int64
  layout : String := ""
  deriving DecidableEq, Repr

namespace Shape

def maxRank : Nat := 64
def maxShapes : Nat := 1024

/-- The dimension that is not known in advance. -/
def unknownDim : Int64 := -1

def scalar : Shape := ⟨[], ""⟩

/-- The shape of sizes; a size past the largest word wraps around. -/
def ofSizes (sizes : List Nat) : Shape := ⟨sizes.map Int64.ofNat, ""⟩

def rank (s : Shape) : Nat := s.dims.length

/-- The shape with more dimensions at the end; the layout is dropped. -/
def append (s : Shape) (extra : List Int64) : Shape := ⟨s.dims ++ extra, ""⟩

def text (s : Shape) : String :=
  "(" ++ ", ".intercalate (s.dims.map fun d => toString d.toInt) ++ ")"

def write (s : Shape) : Writer Unit := do
  Wire.writeLen s.dims.length "shape rank"
  s.dims.forM Wire.writeI64
  let units := Utf16.encode s.layout
  Wire.writeLen units.length "layout length"
  units.forM Wire.writeU16

def read : Reader Shape := do
  let rank ← Wire.readLen "shape rank"
  if maxRank < rank then Reader.fail (.malformed (.rank rank maxRank))
  else
    let dims ← Reader.times rank (Wire.readI64 "shape dimension")
    let count ← Wire.readLen "layout length"
    if maxRank < count then Reader.fail (.malformed (.layoutLength count))
    else
      let units ← Reader.times count (Wire.readU16 "layout")
      match Utf16.decode units with
      | some layout => pure ⟨dims, layout⟩
      | none => Reader.fail (.malformed .layoutUnits)

def writeAll (shapes : List Shape) : Writer Unit := do
  Wire.writeLen shapes.length "input shape count"
  shapes.forM write

def readAll : Reader (List Shape) := do
  let count ← Wire.readLen "input shape count"
  if maxShapes < count then Reader.fail (.malformed (.shapeCount count))
  else Reader.times count read

end Shape
end VectorTable
