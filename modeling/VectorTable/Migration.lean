import VectorTable.Header

/-! Old layouts had no reserved slot: their first item sits in row 0. Such a
matrix gets a row of zeros in front and every slot moves up by one, so each item
keeps its row. -/
namespace VectorTable.Migration

/-- Whether a file lacks the reserved row. The first version is taken as it is. -/
def needsRetrofit (version : UInt8) (zeroReserved : Option Bool) : Bool :=
  if version = 2 then true
  else if version = 3 then !zeroReserved.getD true
  else false

def prependZeroRow (matrix : Tensor) : Except Error Tensor := do
  let (_, cols) ← matrix.rowsCols
  match matrix.elementType.dataType? with
  | none => .error (.malformed (.cellType matrix.elementType.code))
  | some type => do
    let row ← Tensor.zeros type 1 cols
    row.stack matrix

/-- The matrix in the current layout, and whether it was changed. -/
def migrate (version : UInt8) (zeroReserved : Option Bool) (matrix : Tensor) :
    Except Error (Tensor × Bool) :=
  if needsRetrofit version zeroReserved then (·, true) <$> prependZeroRow matrix
  else .ok (matrix, false)

/-- Every entry one slot up. -/
def shiftSlots {α : Type} : List (α × Slot) → Except Error (List (α × Slot))
  | [] => .ok []
  | (item, slot) :: rest =>
    if maxSlot ≤ slot then .error (.malformed (.unshiftableSlot slot))
    else ((item, slot + 1) :: ·) <$> shiftSlots rest

end VectorTable.Migration
