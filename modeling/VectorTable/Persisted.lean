import VectorTable.Migration

/-! A whole table file. Writing always uses the current version; reading takes
any version, brings old layouts forward and checks the entries against the rows
of the matrix. -/
namespace VectorTable

/-- The name of the one parameter of a table. -/
def parameterName : String := "embedding"

/-- What is written to a file. -/
structure Image (α : Type) where
  inputShapes : List Shape
  sparseGrad : Bool
  dataType : DataType
  entries : List (α × Slot)
  matrix : Tensor

namespace Image

variable {α : Type} [Item α]

def writeEntry (e : α × Slot) : Writer Unit := do
  let bytes := Item.encode e.1
  Wire.writeLen bytes.length "encoded item length"
  Writer.put bytes
  Wire.writeI32 e.2.toInt32

def write (image : Image α) : Writer Unit := do
  Wire.writeU8 currentVersion
  Shape.writeAll image.inputShapes
  Wire.writeBool image.sparseGrad
  Wire.writeUtf image.dataType.name
  Wire.writeLen image.entries.length "explicit item count"
  image.entries.forM writeEntry
  Parameter.write parameterName image.matrix

def saved (image : Image α) : Event :=
  ⟨.debug, .file, "saved embedding table",
    [("version", .number currentVersion.toNat), ("explicit_items", .number image.entries.length)]⟩

/-- Write to a device with room for a limited number of bytes, or without a limit. -/
def save (image : Image α) (limit : Option Nat) : Run Event Error (List UInt8) := do
  let bytes ← match limit with
    | none => image.write.output
    | some n => image.write.outputWithin n
  Run.tell image.saved
  pure bytes

end Image

/-- A file that has been read and brought to the current layout. -/
structure Persisted (α : Type) where
  version : UInt8
  inputShapes : Option (List Shape)
  sparseGrad : Option Bool
  dataType : Option DataType
  /-- Absent when the file holds no entries. -/
  index : Option (Index α)
  matrix : Tensor
  numItems : Nat
  width : Nat
  retrofitted : Bool
  deriving DecidableEq

namespace Persisted

variable {α : Type} [DecidableEq α] [Item α]

def legacyRead (version : UInt8) : Event :=
  ⟨.info, .file, "loading legacy embedding table", [("version", .number version.toNat)]⟩

def oddName (name : String) : Event :=
  ⟨.debug, .file, "matrix payload carries an unexpected parameter name", [("name", .text name)]⟩

def zeroRowPrepended (version : UInt8) (storedRows numItems : Nat) : Event :=
  ⟨.warn, .file, "prepended reserved zero row to legacy embedding matrix",
    [("version", .number version.toNat), ("stored_rows", .number storedRows),
     ("num_items", .number numItems)]⟩

/-- The entries of a file as an index of its rows. -/
def indexOf (entries : Option (List (α × Slot))) (retrofitted : Bool) (numItems : Nat) :
    Except Error (Option (Index α)) :=
  match entries with
  | none => .ok none
  | some entries => do
    let entries ← if retrofitted then Migration.shiftSlots entries else .ok entries
    some <$> Index.ofEntries entries numItems

/-- A header and a matrix put together. -/
def assemble (header : Header α) (stored : Tensor) : Run Event Error (Persisted α) := do
  let (storedRows, _) ← stored.rowsCols
  let (matrix, retrofitted) ← Migration.migrate header.version header.zeroReserved stored
  let (numItems, width) ← matrix.rowsCols
  if numItems = 0 then Run.fail (.malformed .noRows)
  else do
    if retrofitted then Run.tell (zeroRowPrepended header.version storedRows numItems)
    let index ← indexOf header.entries retrofitted numItems
    pure ⟨header.version, header.inputShapes, header.sparseGrad, header.dataType, index, matrix,
      numItems, width, retrofitted⟩

/-- The header and the matrix of a file, and what is left of the source. -/
def unpack (source : Source) : Run Event Error ((Header α × Tensor) × Source) := do
  let (header, afterHeader) ← (Header.read : Reader (Header α)) source
  if header.version < currentVersion then Run.tell (legacyRead header.version)
  let ((name, stored), rest) ← Parameter.read afterHeader
  if name ≠ parameterName then Run.tell (oddName name)
  pure ((header, stored), rest)

def read (source : Source) : Run Event Error (Persisted α × Source) := do
  let ((header, stored), rest) ← unpack source
  let persisted ← assemble header stored
  pure (persisted, rest)

end Persisted
end VectorTable
