import VectorTable.Tensor
import VectorTable.Number.Binary

/-! Conversion of cells between types. A real number becomes a whole one by
dropping its fraction and keeping to the range of the type; a whole number that
is too wide keeps its low bits; half-width real numbers are reached by way of
single precision, save that a double loses its low bits on the way to `brain`;
every rounding is to the nearest value, ties to even. Cells that already have the
type keep their bytes, and a pattern that is no number keeps its sign and as much of its
fraction as there is room for. -/
namespace VectorTable

/-- How the bytes of a cell type are read. -/
inductive CellKind where
  | unsigned
  | signed
  | real (format : Binary)
  deriving DecidableEq, Repr

def ElementType.kind : ElementType → CellKind
  | .storable .float32 => .real .single
  | .storable .float64 => .real .double
  | .storable .float16 => .real .half
  | .storable .bfloat16 => .real .brain
  | .storable .uint8 | .storable .uint32 => .unsigned
  | .storable .int64 | .int16 | .int32 => .signed

/-- What a cell holds. -/
inductive Number where
  | whole (n : Int)
  | real (r : Real)
  deriving DecidableEq, Repr

namespace Number

def ofCell (type : ElementType) (cell : List UInt8) : Number :=
  let bits := ofLittleEndian cell
  match type.kind with
  | .unsigned => .whole bits
  | .signed => .whole (Int.bmod bits (2 ^ (8 * type.width)))
  | .real format => .real (format.decode bits)

/-- A whole number, if need be cut to `low .. high`. -/
def clamp (low high : Int) : Number → Int
  | .whole n => max low (min high n)
  | .real .nan => 0
  | .real (.infinite negative) => if negative then low else high
  | .real r => max low (min high (r.truncate.getD 0))

/-- The nearest value in single precision. -/
def single : Number → Real
  | .whole n => Binary.single.decode (Binary.single.encodeInt n)
  | .real r => Binary.single.decode (Binary.single.encode r)

/-- A number on its way from one type to another. -/
def between (source target : CellKind) (x : Number) : Number :=
  match target with
  | .real format =>
    if Binary.single.precision ≤ format.precision then x
    else match source, x with
      | .real origin, .real r =>
        if origin = Binary.double ∧ format = Binary.brain then .real (r.dropLow 32)
        else .real x.single
      | _, _ => .real x.single
  | _ => x

/-- The pattern of a number in a cell type, as a natural number. -/
def bits (type : ElementType) (x : Number) : Nat :=
  let size := 8 * type.width
  match type.kind, x with
  | .unsigned, .whole n | .signed, .whole n => (n % 2 ^ size).toNat
  | .unsigned, x => (x.clamp 0 (2 ^ size - 1)).toNat
  | .signed, x => (x.clamp (-2 ^ (size - 1)) (2 ^ (size - 1) - 1) % 2 ^ size).toNat
  | .real format, .whole n => format.encodeInt n
  | .real format, .real r => format.encode r

def toCell (type : ElementType) (x : Number) : List UInt8 := littleEndian type.width (x.bits type)

@[simp] theorem length_toCell (type : ElementType) (x : Number) :
    (x.toCell type).length = type.width := length_littleEndian _ _

end Number

/-- The pattern of a cell that is no number, in another real type. -/
def nanPattern? (source target : ElementType) (bits : Nat) : Option Nat :=
  match source.kind, target.kind with
  | .real f, .real g => if f.decode bits = .nan then some (f.carryNan g bits) else none
  | _, _ => none

/-- The bytes of one cell in another type. -/
def convertCell (source target : ElementType) (cell : List UInt8) : List UInt8 :=
  match nanPattern? source target (ofLittleEndian cell) with
  | some bits => littleEndian target.width bits
  | none => ((Number.ofCell source cell).between source.kind target.kind).toCell target

@[simp] theorem length_convertCell (source target : ElementType) (cell : List UInt8) :
    (convertCell source target cell).length = target.width := by
  unfold convertCell
  split
  · exact length_littleEndian _ _
  · exact Number.length_toCell _ _

namespace Tensor

/-- The tensor with its cells converted to another type. -/
def convert (t : Tensor) (type : ElementType) : Tensor :=
  if t.elementType = type then t
  else {
    elementType := type
    dims := t.dims
    data := t.cells.flatMap (convertCell t.elementType type)
    contiguous := true
    length_data := by
      rw [length_flatMap_const fun _ _ => length_convertCell _ _ _]
      simp [cells] }

/-- The cells as 64-bit whole numbers. -/
def integers (t : Tensor) : List Int :=
  (t.convert (.storable .int64)).cells.map fun cell => Int.bmod (ofLittleEndian cell) (2 ^ 64)

end Tensor
end VectorTable
