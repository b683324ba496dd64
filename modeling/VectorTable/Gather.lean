import VectorTable.Cell
import VectorTable.Event
import VectorTable.Run

/-! Selecting rows of a matrix by slot. The answer has the dimensions of the
index tensor and one more, the width of a row. -/
namespace VectorTable

structure GatherPlan where
  width : Nat
  numItems : Nat
  dataType : DataType
  sparseGrad : Bool
  deriving DecidableEq, Repr

/-- Slots as row numbers of 32 bits; the first one outside the table is reported. -/
def rowNumbers (numItems : Nat) : List Int → Except Error (List UInt32)
  | [] => .ok []
  | slot :: rest =>
    if slot < 0 ∨ (numItems : Int) ≤ slot then .error (.slotOutOfRange slot numItems)
    else (UInt32.ofNat slot.toNat :: ·) <$> rowNumbers numItems rest

def rowsGathered (count : Nat) (sparseGrad : Bool) : Event :=
  ⟨.trace, .gather, "gathered embedding rows",
    [("count", .number count), ("sparse_grad", .flag sparseGrad)]⟩

def gather (indices matrix : Tensor) (plan : GatherPlan) : Run Event Error Tensor := do
  let (rows, cols) ← matrix.rowsCols
  if rows ≠ plan.numItems ∨ cols ≠ plan.width then
    Run.fail (.configuration (.matrixSize rows cols plan.numItems plan.width))
  else
    let ids ← rowNumbers plan.numItems indices.integers
    match matrix.selectRows (ids.map UInt32.toNat) with
    | .error fault => Run.fail (.tensor fault)
    | .ok picked =>
      let dims := indices.dims ++ [plan.width]
      if h : cellCount dims = cellCount picked.dims then do
        Run.tell (rowsGathered ids.length plan.sparseGrad)
        pure ((picked.reshape dims h).convert (.storable plan.dataType))
      else Run.fail (.tensor .dimensionsDiffer)

/-- Slots as a tensor of rank 1. -/
def Tensor.ofSlots (slots : List UInt32) : Tensor where
  elementType := .storable .uint32
  dims := [slots.length]
  data := slots.flatMap fun s => littleEndian 4 s.toNat
  contiguous := true
  length_data := by
    rw [length_flatMap_const fun _ _ => length_littleEndian 4 _]
    simp [cellCount, ElementType.width, DataType.width]

end VectorTable
