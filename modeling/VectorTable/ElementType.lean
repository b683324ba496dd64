import VectorTable.Error
import VectorTable.Text.Blank

/-! The types of matrix cells. A persisted table may hold the seven data types,
each known by its lower-case name; tensors that come from elsewhere may also
hold two kinds of integers that no file can. -/
namespace VectorTable

inductive DataType where
  | float32 | float64 | float16 | bfloat16 | uint8 | uint32 | int64
  deriving DecidableEq, Repr, Inhabited

namespace DataType

def all : List DataType := [.float32, .float64, .float16, .bfloat16, .uint8, .uint32, .int64]

def name : DataType → String
  | .float32 => "float32"
  | .float64 => "float64"
  | .float16 => "float16"
  | .bfloat16 => "bfloat16"
  | .uint8 => "uint8"
  | .uint32 => "uint32"
  | .int64 => "int64"

/-- The name of the constructor, as the debug form of a configuration shows it. -/
def debug : DataType → String
  | .float32 => "Float32"
  | .float64 => "Float64"
  | .float16 => "Float16"
  | .bfloat16 => "Bfloat16"
  | .uint8 => "Uint8"
  | .uint32 => "Uint32"
  | .int64 => "Int64"

/-- Bytes of one cell. -/
def width : DataType → Nat
  | .uint8 => 1
  | .float16 | .bfloat16 => 2
  | .float32 | .uint32 => 4
  | .float64 | .int64 => 8

def ofName? (name : String) : Option DataType := all.find? fun t => t.name == name

/-- The type of a name in any mixture of ASCII cases. -/
def parse (text : String) : Except Flaw DataType :=
  match ofName? (lowerAscii text) with
  | some t => .ok t
  | none => .error (.typeName (lowerAscii text))

theorem width_pos (t : DataType) : 0 < t.width := by cases t <;> decide

theorem mem_all (t : DataType) : t ∈ all := by cases t <;> decide

end DataType

inductive ElementType where
  | storable (type : DataType)
  | int16
  | int32
  deriving DecidableEq, Repr

namespace ElementType

def dataType? : ElementType → Option DataType
  | .storable t => some t
  | _ => none

def width : ElementType → Nat
  | .storable t => t.width
  | .int16 => 2
  | .int32 => 4

/-- The short code of a cell type. -/
def code : ElementType → String
  | .storable .float32 => "F32"
  | .storable .float64 => "F64"
  | .storable .float16 => "F16"
  | .storable .bfloat16 => "BF16"
  | .storable .uint8 => "U8"
  | .storable .uint32 => "U32"
  | .storable .int64 => "I64"
  | .int16 => "I16"
  | .int32 => "I32"

theorem width_pos (t : ElementType) : 0 < t.width := by
  cases t with
  | storable t => exact t.width_pos
  | int16 => decide
  | int32 => decide

end ElementType
end VectorTable
