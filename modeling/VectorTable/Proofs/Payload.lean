import VectorTable.Proofs.Gather
import VectorTable.Proofs.Grammar

/-! The payload of a matrix. What is written of a matrix is read back as the matrix, cell by cell,
also where the matrix is the transpose of another one and its cells lie in memory by columns. What
is read was declared: the number of data bytes that a file gives is the product of its sides and
the width of a cell, as numbers that do not wrap around, and so many bytes are taken. -/
namespace VectorTable

/-- A piece of a piece. -/
theorem take_drop_take_drop {β : Type} (l : List β) (a : Nat) {b size n : Nat} (h : b + n ≤ size) :
    (((l.drop a).take size).drop b).take n = (l.drop (a + b)).take n := by
  have hmin : min n (size - b) = n := by omega
  rw [List.drop_take, List.take_take, List.drop_drop, hmin]

namespace Tensor

/-- The bytes of the cell in a row and a column. -/
def cell (t : Tensor) (i j : Nat) : List UInt8 := t.stretch 1 (i * cellCount t.dims.tail + j)

variable {t view : Tensor} {rows cols : Nat}

theorem cell_pair (h : t.dims = [rows, cols]) (i j : Nat) : t.cell i j =
    (t.data.drop ((i * cols + j) * t.elementType.width)).take t.elementType.width := by
  simp [cell, stretch, h, cellCount]

/-- Every cell that the sides allow for lies within the data. -/
theorem length_cell (h : t.dims = [rows, cols]) {i j : Nat} (hi : i < rows) (hj : j < cols) :
    (t.cell i j).length = t.elementType.width := by
  have hdata : t.data.length = rows * cols * t.elementType.width := by
    rw [t.length_data, h, cellCount_pair]
  have hrow : (i + 1) * cols ≤ rows * cols := Nat.mul_le_mul_right cols hi
  have hcount : i * cols + j + 1 ≤ rows * cols := by
    rw [Nat.succ_mul] at hrow
    omega
  have hbytes : (i * cols + j + 1) * t.elementType.width ≤ rows * cols * t.elementType.width :=
    Nat.mul_le_mul_right _ hcount
  rw [Nat.succ_mul] at hbytes
  rw [cell_pair h, List.length_take, List.length_drop]
  omega

/-- Only a matrix has a transpose, and it lists the cells column by column. -/
theorem transpose?_eq_some (hv : t.transpose? = some view) : ∃ rows cols, t.dims = [rows, cols] ∧
    view.elementType = t.elementType ∧ view.dims = [cols, rows] ∧
      view.data = (List.range cols).flatMap fun j => (List.range rows).flatMap fun i =>
        t.cell i j := by
  unfold transpose? at hv
  split at hv
  · rename_i rows cols h
    simp only [cell_pair h]
    cases hv
    exact ⟨rows, cols, h, rfl, rfl, rfl⟩
  · cases hv

/-- The transpose has every cell of the matrix, with the row for the column. -/
theorem cell_transpose (hv : t.transpose? = some view) (hd : view.dims = [cols, rows]) {i j : Nat}
    (hi : i < rows) (hj : j < cols) : view.cell j i = t.cell i j := by
  obtain ⟨rows', cols', h, htype, hdims, hdata⟩ := transpose?_eq_some hv
  rw [hd] at hdims
  cases hdims
  have hcells : ∀ j < cols, ∀ i ∈ List.range rows, (t.cell i j).length = t.elementType.width :=
    fun j hj i hi => length_cell h (List.mem_range.mp hi) hj
  have hcolumn : ∀ j ∈ List.range cols, ((List.range rows).flatMap fun i => t.cell i j).length =
      rows * t.elementType.width := by
    intro j hj
    rw [length_flatMap_const (hcells j (List.mem_range.mp hj)), List.length_range]
  have hin : i * t.elementType.width + t.elementType.width ≤ rows * t.elementType.width := by
    have hle := Nat.mul_le_mul_right t.elementType.width hi
    rwa [Nat.succ_mul] at hle
  have hplace : (j * rows + i) * t.elementType.width =
      j * (rows * t.elementType.width) + i * t.elementType.width := by
    rw [Nat.add_mul, Nat.mul_assoc]
  calc view.cell j i
    _ = (view.data.drop (j * (rows * t.elementType.width) + i * t.elementType.width)).take
          t.elementType.width := by rw [cell_pair hd, htype, hplace]
    _ = ((((List.range cols).flatMap fun j => (List.range rows).flatMap fun i => t.cell i j).drop
          (j * (rows * t.elementType.width))).take (rows * t.elementType.width)
            |>.drop (i * t.elementType.width)).take t.elementType.width := by
        rw [hdata, take_drop_take_drop _ _ hin]
    _ = (((List.range rows).flatMap fun i => t.cell i j).drop (i * t.elementType.width)).take
          t.elementType.width := by
        rw [take_drop_flatMap hcolumn (List.getElem?_range hj)]
    _ = t.cell i j := take_drop_flatMap (hcells j hj) (List.getElem?_range hi)

end Tensor

namespace Parameter

/-- The source begins with the payload of a matrix, and the number of data bytes that it declares
is that of a matrix with these sides. -/
structure Declares (source : Source) (name : String) (matrix : Tensor) (rest : Source)
    (type : DataType) (rows cols : Nat) : Prop where
  storable : matrix.Storable type rows cols
  rows_lt : rows < 2 ^ 63
  cols_lt : cols < 2 ^ 63
  length_data : matrix.data.length = rows * cols * type.width
  layout : ∃ (typeName axes : String) (declared : Int64), lowerAscii typeName = type.name ∧
    declared.toInt = (rows * cols * type.width : Nat) ∧
    source = rest.behind (Layout.uint16 0x50 ++ [1] ++ Layout.text name ++ Layout.text typeName ++
      Layout.shape ⟨[Int64.ofNat rows, Int64.ofNat cols], axes⟩ ++ Layout.int64 declared ++
      matrix.data)

theorem declares_of_read {source rest : Source} {name : String} {matrix : Tensor}
    (h : read source = .ok ((name, matrix), rest)) :
    ∃ type rows cols, Declares source name matrix rest type rows cols := by
  obtain ⟨m, rfl, hm⟩ := exact_read.layout h
  cases hm
  have hdeclared : (Int64.ofNat m.data.length).toInt =
      (m.rows * m.cols * m.typeName.type.width : Nat) := by
    rw [Int64.toInt_ofNat_of_lt m.length_lt, m.length_data]
  exact ⟨m.typeName.type, m.rows, m.cols, ⟨rfl, rfl⟩, m.rows_lt, m.cols_lt, m.length_data,
    m.typeName.string, m.axes, Int64.ofNat m.data.length, m.typeName.names, hdeclared, rfl⟩

/-- Cells that no file can hold are refused at the first step. -/
theorem write_of_unsavable {matrix : Tensor} (h : matrix.elementType.dataType? = none)
    (name : String) :
    write name matrix = Writer.fail (.configuration (.unsavableCells matrix.elementType.code)) := by
  unfold write
  rw [h]

/-- A matrix is written, and read back with the same cells in the same places, with nothing taken
of what comes behind it; a transpose is read back with the cells of the matrix that it is the
transpose of. Whatever is read as a matrix has declared as many bytes as its cells have. And a
matrix of cells that no file can hold is refused with nothing written. -/
theorem read_of_write (name : String) (matrix : Tensor) :
    (∀ type rows cols, matrix.Storable type rows cols → (Utf8.encode name).length < 2 ^ 16 →
      rows < 2 ^ 63 → cols < 2 ^ 63 → matrix.data.length < 2 ^ 63 →
      ∃ bytes, Writes (write name matrix) bytes ∧ ∀ rest ending, ∃ out,
        read ⟨bytes ++ rest, ending⟩ = .ok ((name, out), ⟨rest, ending⟩) ∧
        out.Storable type rows cols ∧ out.data = matrix.data ∧
        ∀ original : Tensor, original.transpose? = some matrix →
          ∀ i < rows, ∀ j < cols, out.cell i j = original.cell j i) ∧
    (∀ source rest, read source = .ok ((name, matrix), rest) →
      ∃ type rows cols, Declares source name matrix rest type rows cols) ∧
    (matrix.elementType.dataType? = none → (write name matrix).trail = [] ∧
      (write name matrix).result =
        .error (.configuration (.unsavableCells matrix.elementType.code))) := by
  refine ⟨?_, fun source rest h => declares_of_read h, ?_⟩
  · intro type rows cols hm hn hr hc hb
    obtain ⟨bytes, hw, hread⟩ := carries hm hn hr hc hb
    refine ⟨bytes, hw, fun rest ending => ⟨matrix.rowMajor, hread rest ending, ?_, rfl, ?_⟩⟩
    · exact ⟨hm.elementType_eq, hm.dims_eq⟩
    · intro original hv i hi j hj
      have hcell : matrix.rowMajor.cell i j = matrix.cell i j := rfl
      rw [hcell]
      exact Tensor.cell_transpose hv hm.dims_eq hj hi
  · intro hnone
    rw [write_of_unsavable hnone name]
    exact ⟨rfl, rfl⟩

/-- The transpose of a matrix of two rows. -/
theorem read_of_write_transpose :
    let original : Tensor := ⟨.storable .uint8, [2, 3], [1, 2, 3, 4, 5, 6], true, rfl⟩
    let matrix : Tensor := ⟨.storable .uint8, [3, 2], [1, 4, 2, 5, 3, 6], false, rfl⟩
    original.transpose? = some matrix ∧ matrix.Storable .uint8 3 2 ∧
      ∃ bytes out, Writes (write "m" matrix) bytes ∧
        read ⟨bytes ++ [7, 7], .endOfData⟩ = .ok (("m", out), ⟨[7, 7], .endOfData⟩) ∧
        out.data = [1, 4, 2, 5, 3, 6] ∧ out.cell 2 1 = original.cell 1 2 := by
  intro original matrix
  have hv : original.transpose? = some matrix := by decide
  have hm : matrix.Storable .uint8 3 2 := ⟨rfl, rfl⟩
  obtain ⟨hwrite, -, -⟩ := read_of_write "m" matrix
  obtain ⟨bytes, hw, hread⟩ :=
    hwrite _ _ _ hm (by decide) (by decide) (by decide) (by decide)
  obtain ⟨out, ho, -, hdata, hcells⟩ := hread [7, 7] .endOfData
  exact ⟨hv, hm, bytes, out, hw, ho, hdata, hcells original hv 2 (by decide) 1 (by decide)⟩

end Parameter
end VectorTable
