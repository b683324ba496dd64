import VectorTable.ElementType
import VectorTable.Bytes.Order
import VectorTable.Memory

/-! Tensors: a cell type, dimensions, and the bytes of the cells, least
significant byte first, in row-major order of the indices. A transposed tensor
keeps the order of its old rows in memory, so it is not contiguous; its bytes
are listed here in the order of its new rows, and only row selection minds the
difference. -/
namespace VectorTable

def cellCount (dims : List Nat) : Nat := dims.foldr (· * ·) 1

structure Tensor where
  elementType : ElementType
  dims : List Nat
  data : List UInt8
  contiguous : Bool
  length_data : data.length = cellCount dims * elementType.width
  deriving DecidableEq

/-- Consecutive pieces of one width. -/
def pieces (width : Nat) : Nat → List UInt8 → List (List UInt8)
  | 0, _ => []
  | n + 1, bytes => bytes.take width :: pieces width n (bytes.drop width)

@[simp] theorem length_pieces (width n : Nat) (bytes : List UInt8) :
    (pieces width n bytes).length = n := by
  induction n generalizing bytes with
  | zero => rfl
  | succ n ih => simp [pieces, ih]

theorem length_flatMap_const {α β : Type} {f : α → List β} {l : List α} {w : Nat}
    (h : ∀ a ∈ l, (f a).length = w) : (l.flatMap f).length = l.length * w := by
  induction l with
  | nil => simp
  | cons a l ih =>
    rw [List.flatMap_cons, List.length_append, h a (by simp),
      ih fun b hb => h b (by simp [hb]), List.length_cons, Nat.succ_mul]
    omega

namespace Tensor

/-- The contiguous tensor of given bytes, if their number is right. -/
def ofBytes? (type : ElementType) (dims : List Nat) (data : List UInt8) : Option Tensor :=
  if h : data.length = cellCount dims * type.width then some ⟨type, dims, data, true, h⟩ else none

def rank (t : Tensor) : Nat := t.dims.length

/-- Rows and columns of a tensor of rank 2. -/
def rowsCols (t : Tensor) : Except Error (Nat × Nat) :=
  match t.dims with
  | [rows, cols] => .ok (rows, cols)
  | dims => .error (.tensor (.rank 2 dims.length))

/-- Every cell, by its bytes. -/
def cells (t : Tensor) : List (List UInt8) :=
  pieces t.elementType.width (cellCount t.dims) t.data

/-- The matrix of zeros. -/
def zeroed (type : DataType) (rows cols : Nat) : Tensor where
  elementType := .storable type
  dims := [rows, cols]
  data := List.replicate (rows * cols * type.width) 0
  contiguous := true
  length_data := by simp [cellCount, ElementType.width]

/-- A matrix of zeros, if there is a block of memory for it. -/
def zeros (type : DataType) (rows cols : Nat) : Except Error Tensor := do
  allocate (rows * cols * type.width)
  .ok (zeroed type rows cols)

/-- The bytes of one row. -/
def row (t : Tensor) (k : Nat) : List UInt8 :=
  let size := cellCount t.dims.tail * t.elementType.width
  (t.data.drop (k * size)).take size

/-- One tensor on top of another, in a block of its own. They must agree in everything
but the number of rows. -/
def stack (top bottom : Tensor) : Except Error Tensor :=
  match ht : top.dims, hb : bottom.dims with
  | m :: tail, n :: tail' =>
    if hd : tail = tail' then
      if he : top.elementType = bottom.elementType then do
        allocate (top.data.length + bottom.data.length)
        .ok {
          elementType := top.elementType
          dims := (m + n) :: tail
          data := top.data ++ bottom.data
          contiguous := true
          length_data := by
            have h1 := top.length_data
            have h2 := bottom.length_data
            rw [ht] at h1
            rw [hb, ← hd, ← he] at h2
            simp only [cellCount, List.foldr_cons, List.length_append, h1, h2] at *
            rw [Nat.add_mul, Nat.add_mul] }
      else .error (.tensor .typesDiffer)
    else .error (.tensor .dimensionsDiffer)
  | [], _ => .error (.tensor .noDimension)
  | _ :: _, [] => .error (.tensor (.rank top.dims.length 0))

theorem length_row {t : Tensor} {rows : Nat} {tail : List Nat} (h : t.dims = rows :: tail)
    {k : Nat} (hk : k < rows) : (t.row k).length = cellCount tail * t.elementType.width := by
  have hl := t.length_data
  have hle : (k + 1) * (cellCount tail * t.elementType.width) ≤
      rows * (cellCount tail * t.elementType.width) := Nat.mul_le_mul_right _ hk
  rw [h] at hl
  simp only [cellCount, List.foldr_cons] at hl hle
  rw [Nat.succ_mul] at hle
  rw [Nat.mul_assoc] at hl
  simp only [row, h, List.tail_cons, cellCount, List.length_take, List.length_drop]
  omega

/-- The rows of the given numbers, in the given order. -/
def selectRows (t : Tensor) (ids : List Nat) : Except TensorFault Tensor :=
  match hd : t.dims with
  | [] => .error .noDimension
  | rows :: tail =>
    if t.contiguous then
      match hb : ids.find? fun k => rows ≤ k with
      | some k => .error (.rowOutside k rows)
      | none =>
        .ok {
          elementType := t.elementType
          dims := ids.length :: tail
          data := ids.flatMap t.row
          contiguous := true
          length_data := by
            have hlt : ∀ k ∈ ids, k < rows := by
              intro k hk
              have := List.find?_eq_none.mp hb k hk
              simp only [decide_eq_true_eq] at this
              omega
            rw [length_flatMap_const fun k hk => length_row hd (hlt k hk)]
            simp [cellCount, Nat.mul_assoc] }
    else .error .notContiguous

/-- The same cells under other dimensions with the same number of cells. -/
def reshape (t : Tensor) (dims : List Nat) (h : cellCount dims = cellCount t.dims) : Tensor :=
  { t with dims := dims, contiguous := true, length_data := by rw [h]; exact t.length_data }

/-- Whether a transposed matrix happens to lie in memory row by row. -/
def staysContiguous (rows cols : Nat) : Bool :=
  (rows ≤ 1 || cols == 1) && (cols ≤ 1 || rows == 1)

/-- The transpose of a matrix. -/
def transpose? (t : Tensor) : Option Tensor :=
  match hd : t.dims with
  | [rows, cols] =>
    some {
      elementType := t.elementType
      dims := [cols, rows]
      data := (List.range cols).flatMap fun j => (List.range rows).flatMap fun i =>
        (t.data.drop ((i * cols + j) * t.elementType.width)).take t.elementType.width
      contiguous := t.contiguous && staysContiguous rows cols
      length_data := by
        have hl := t.length_data
        rw [hd] at hl
        simp only [cellCount, List.foldr_cons, List.foldr_nil, Nat.mul_one] at hl
        rw [length_flatMap_const (w := rows * t.elementType.width)]
        · simp [cellCount, Nat.mul_assoc]
        · intro j hj
          rw [length_flatMap_const (w := t.elementType.width)]
          · simp
          · intro i hi
            have hj := List.mem_range.mp hj
            have hi := List.mem_range.mp hi
            have h1 : (i + 1) * cols ≤ rows * cols := Nat.mul_le_mul_right _ hi
            have h2 : (i * cols + j + 1) * t.elementType.width ≤
                rows * cols * t.elementType.width :=
              Nat.mul_le_mul_right _ (by rw [Nat.succ_mul] at h1; omega)
            rw [Nat.succ_mul] at h2
            simp only [List.length_take, List.length_drop]
            omega }
  | _ => none

end Tensor
end VectorTable
