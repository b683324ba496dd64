import VectorTable.Batch
import VectorTable.Config
import VectorTable.Files
import VectorTable.Gather
import VectorTable.Persisted

/-! The table itself: an index, a matrix with one row per slot, and a policy for
unknown items. A table is built from options, from a trained matrix or from a
file. A load works on the table where it stands; it replaces the index and the matrix
together or leaves everything as it was. -/
namespace VectorTable

structure Table (α : Type) [Item α] where
  index : Index α
  matrix : Tensor
  width : Nat
  dataType : DataType
  sparseGrad : Bool
  fallthrough : Fallthrough α
  inputShapes : List Shape

namespace Table

variable {α : Type} [DecidableEq α] [Item α]

/-- One input of unknown length. -/
def defaultShapes : List Shape := [⟨[Shape.unknownDim], ""⟩]

def matrixDataType (matrix : Tensor) : Except Error DataType :=
  match matrix.elementType.dataType? with
  | some type => .ok type
  | none => .error (.configuration (.cellType matrix.elementType.code))

/-- Rows of the matrix, row 0 included. -/
def numItems (t : Table α) : Nat := t.index.numItems

/-- The items with their slots, in ascending order of slot. -/
def entries (t : Table α) : List (α × Slot) := t.index.entries

def constructed (t : Table α) (source : String) : Event :=
  ⟨.debug, .table, "constructed embedding table",
    [("source", .text source), ("items", .number t.index.size), ("num_items", .number t.numItems),
     ("embedding_size", .number t.width), ("data_type", .text t.dataType.name),
     ("fallthrough", .text t.fallthrough.kind)]⟩

/-- A fresh table. -/
def ofConfig (config : Config α) (noise : Noise) : Run Event Error (Table α) := do
  config.validate
  let fallthrough ← config.fallthrough
  let index ← Index.ofItems config.items
  let matrix ← config.filling.matrix noise config.dataType index.numItems config.width
  let table : Table α :=
    ⟨index, matrix, config.width, config.dataType, config.sparseGrad, fallthrough, defaultShapes⟩
  Run.tell (table.constructed "config")
  pure table

def reservedRowMissing (rows : Nat) : Event :=
  ⟨.warn, .table, "pretrained matrix lacks the reserved row; prepending zeros",
    [("rows", .number rows)]⟩

/-- A trained matrix as it is if it has a row for every slot, or with a row of
zeros in front if it has a row for every item. -/
def alignRows (index : Index α) (matrix : Tensor) (rows : Nat) : Run Event Error Tensor :=
  if rows = index.numItems then pure matrix
  else if rows = index.size then do
    Run.tell (reservedRowMissing rows)
    Migration.prependZeroRow matrix
  else Run.fail (.configuration (.pretrainedRows rows index.size))

/-- A table around a trained matrix. -/
def ofPretrained (matrix : Tensor) (items : List α) (fallthrough : Fallthrough α) :
    Run Event Error (Table α) := do
  let index ← Index.ofItems items
  let (rows, cols) ← matrix.rowsCols
  if cols = 0 then Run.fail (.configuration .emptyRows)
  else do
    let matrix ← alignRows index matrix rows
    let dataType ← matrixDataType matrix
    let table : Table α := ⟨index, matrix, cols, dataType, true, fallthrough, defaultShapes⟩
    Run.tell (table.constructed "pretrained")
    pure table

/-- The index after a file: its own, or the one that there was, if its slots have
rows. -/
def indexAfter (t : Table α) (p : Persisted α) : Except Error (Index α) :=
  match p.index with
  | some index => .ok index
  | none => Index.ofEntries t.entries p.numItems

def dataTypeAfter (p : Persisted α) : Except Error DataType :=
  match p.dataType with
  | some dataType => .ok dataType
  | none => matrixDataType p.matrix

/-- A method that may change a table and may fail. What it has changed by the time it fails stays
changed. -/
abbrev Method (α : Type) [Item α] := ExceptT Error (StateM (Table α))

/-- Put the contents of a file into a table, field by field. -/
def assign (p : Persisted α) (index : Index α) (dataType : DataType) : Method α Unit := do
  modify fun t => { t with index }
  modify fun t => { t with matrix := p.matrix }
  modify fun t => { t with width := p.width }
  modify fun t => { t with dataType }
  p.sparseGrad.forM fun sparseGrad => modify fun t => { t with sparseGrad }
  p.inputShapes.forM fun inputShapes => modify fun t => { t with inputShapes }

/-- Check the contents of a file against a table and put them into it. A file without entries
leaves the items in place. -/
def takeIn (p : Persisted α) : Method α Unit := do
  let t ← get
  let index ← t.indexAfter p
  let dataType ← dataTypeAfter p
  assign p index dataType

/-- The table after it has taken in the contents of a file, or has failed to. -/
def apply (t : Table α) (p : Persisted α) : Table α × Except Error Unit :=
  let (outcome, after) := (takeIn p).run t
  (after, outcome)

/-- A table straight from a file, together with what is left of the source. -/
def restore (source : Source) (fallthrough : Fallthrough α) :
    Run Event Error (Table α × Source) := do
  let (p, rest) ← Persisted.read source
  let dataType ← matrixDataType p.matrix
  let blank : Table α := ⟨Index.empty, p.matrix, p.width, dataType, true, fallthrough, defaultShapes⟩
  let (table, outcome) := blank.apply p
  outcome
  Run.tell (table.constructed "restore")
  pure (table, rest)

/-- The table after an attempt to load a file, and what is left of the source. -/
def load (t : Table α) (source : Source) : Table α × Run Event Error Source :=
  let input : Run Event Error (Persisted α × Source) := Persisted.read source
  match input.result with
  | .error e => (t, ⟨input.trail, .error e⟩)
  | .ok (p, rest) =>
    let (after, outcome) := t.apply p
    (after, do
      Run.tellAll input.trail
      outcome
      pure rest)

/-- The table after an attempt to load a file. -/
def attempt (t : Table α) (source : Source) : Table α := (t.load source).1

/-- The table with the gradient flag set by hand. -/
def withSparseGrad (t : Table α) (sparseGrad : Bool) : Table α := { t with sparseGrad }

def image (t : Table α) : Image α :=
  ⟨t.inputShapes, t.sparseGrad, t.dataType, t.entries, t.matrix⟩

/-- The bytes of the table, on a device with or without a limit. -/
def save (t : Table α) (limit : Option Nat) : Run Event Error (List UInt8) := t.image.save limit

/-- Write the table to a file. -/
def saveFile (t : Table α) (fs : Files) (path : String) : Files × Run Event Error Unit :=
  let (fs, outcome) := fs.write path t.image.write
  (fs, do
    outcome
    Run.tell t.image.saved)

/-- The table after an attempt to load a file of a file system. -/
def loadFile (t : Table α) (fs : Files) (path : String) : Table α × Run Event Error Unit :=
  match fs.openSource path with
  | .error fault => (t, Run.fail (.io fault))
  | .ok source =>
    let (after, outcome) := t.load source
    (after, do
      let _ ← outcome
      pure ())

/-- The slot of an item: its own, or what the policy says. -/
def embedOne (t : Table α) (item : α) : Except Error Slot :=
  match t.index.slot? item with
  | some slot => .ok slot
  | none => t.fallthrough.embed item

/-- The slots of items, in order. The items that the table lacks are put to the
policy in one call, and each answer is written at the place of its item. -/
def embedBatch (t : Table α) (items : List α) : Except Error (List Slot) :=
  let batch := Batch.ofItems t.index items
  if batch.misses.isEmpty then .ok batch.slots.toList
  else do
    let answers ← t.fallthrough.embedBatch batch.misses.toList
    if answers.length ≠ batch.misses.size then
      .error (.configuration (.answerCount answers.length batch.misses.size))
    else .ok (batch.scatter answers).toList

/-- The item at a slot. The reserved slot is a matter of the policy. -/
def unembed (t : Table α) (slot : Slot) : Except Error (Option α) :=
  if slot = reservedSlot then t.fallthrough.unembed slot else .ok (t.index.item? slot)

def hasItem (t : Table α) (item : α) : Bool := t.index.contains item

def canEmbed (t : Table α) (item : α) : Bool := t.hasItem item || t.fallthrough.hasItem item

def embedToTensor (t : Table α) (items : List α) : Except Error Tensor :=
  Tensor.ofSlots <$> t.embedBatch items

/-- How the table gathers rows. -/
def plan (t : Table α) : GatherPlan := ⟨t.width, t.numItems, t.dataType, t.sparseGrad⟩

/-- The rows that an index tensor addresses. A lone index is gathered as a list of one, and
its row is answered without that list around it. -/
def forward (t : Table α) (indices : Tensor) : Run Event Error Tensor :=
  if h : indices.rank = 0 then do
    let one := indices.reshape [1] (by rw [List.eq_nil_of_length_eq_zero h]; rfl)
    let rows ← gather one t.matrix t.plan
    if hc : cellCount [t.width] = cellCount rows.dims then pure (rows.reshape [t.width] hc)
    else Run.fail (.tensor .dimensionsDiffer)
  else gather indices t.matrix t.plan

/-- The rows of items. -/
def lookup (t : Table α) (items : List α) : Run Event Error Tensor := do
  let indices ← t.embedToTensor items
  t.forward indices

def outputShape (t : Table α) (input : Shape) : Shape := input.append [Int64.ofNat t.width]

/-- The shape of a parameter; there is only one. -/
def parameterShape (t : Table α) (name : String) : Except Error Shape :=
  if name = parameterName then .ok (Shape.ofSizes [t.numItems, t.width])
  else .error (.invalidParameterName name)

end Table
end VectorTable
