import VectorTable.Filling
import VectorTable.Migration
import VectorTable.Proofs.Codec

/-! Matrices and their rows. A fresh matrix has the type and the sides that were
asked for, and a row of zeros put in front of a matrix moves every row one further
down. -/
namespace VectorTable

theorem ElementType.dataType?_eq_some {e : ElementType} {type : DataType} :
    e.dataType? = some type ↔ e = .storable type := by
  cases e <;> simp [ElementType.dataType?]

theorem cellCount_pair (rows cols : Nat) : cellCount [rows, cols] = rows * cols := by
  simp [cellCount]

namespace Tensor

/-- The same cells, lying in memory row by row. -/
def rowMajor (t : Tensor) : Tensor := { t with contiguous := true }

theorem rowsCols_eq_ok {t : Tensor} {rows cols : Nat} :
    t.rowsCols = .ok (rows, cols) ↔ t.dims = [rows, cols] := by
  unfold rowsCols
  split
  · rename_i r c h
    simp [h]
  · rename_i h
    constructor
    · intro h'
      cases h'
    · intro h'
      exact absurd h' (h rows cols)

theorem rowMajor_eq {t : Tensor} (h : t.contiguous = true) : t.rowMajor = t := by
  cases t
  cases h
  rfl

theorem ofBytes?_rowMajor (t : Tensor) :
    ofBytes? t.elementType t.dims t.data = some t.rowMajor := by
  rw [ofBytes?, dif_pos t.length_data]
  rfl

theorem ofBytes?_eq_some {type : ElementType} {dims : List Nat} {data : List UInt8} {t : Tensor}
    (h : ofBytes? type dims data = some t) :
    t.elementType = type ∧ t.dims = dims ∧ t.data = data ∧ t.contiguous = true := by
  unfold ofBytes? at h
  split_ifs at h with hl
  cases h
  exact ⟨rfl, rfl, rfl, rfl⟩

/-- Tensors that agree are put on top of each other, if there is a block for both. -/
theorem stack_of_agree {top bottom : Tensor} {m n : Nat} {tail : List Nat}
    (ht : top.dims = m :: tail) (hb : bottom.dims = n :: tail)
    (he : top.elementType = bottom.elementType) :
    ∃ t, (top.stack bottom = allocate (top.data.length + bottom.data.length) >>= fun _ => .ok t) ∧
      t.elementType = bottom.elementType ∧ t.dims = (m + n) :: tail ∧
      t.data = top.data ++ bottom.data ∧ t.contiguous = true := by
  obtain ⟨type, dims, data, c, hl⟩ := top
  obtain ⟨type', dims', data', c', hl'⟩ := bottom
  dsimp only at ht hb he
  subst ht hb he
  refine ⟨⟨type, (m + n) :: tail, data ++ data', true, ?_⟩, ?_, rfl, rfl, rfl, rfl⟩
  · simp only [cellCount, List.foldr_cons, List.length_append, hl, hl']
    rw [Nat.add_mul, Nat.add_mul]
  · simp [stack]

theorem row_pair {t : Tensor} {rows cols : Nat} (h : t.dims = [rows, cols]) (k : Nat) :
    t.row k =
      (t.data.drop (k * (cols * t.elementType.width))).take (cols * t.elementType.width) := by
  simp [row, h, cellCount]

@[simp] theorem dims_convert (t : Tensor) (type : ElementType) :
    (t.convert type).dims = t.dims := by
  unfold convert
  split_ifs <;> rfl

@[simp] theorem elementType_convert (t : Tensor) (type : ElementType) :
    (t.convert type).elementType = type := by
  unfold convert
  split_ifs with h
  · exact h
  · rfl

end Tensor

theorem Filling.matrix_eq_ok {filling : Filling} {noise : Noise} {type : DataType}
    {rows cols : Nat} {t : Tensor} (h : filling.matrix noise type rows cols = .ok t) :
    t.elementType = .storable type ∧ t.dims = [rows, cols] := by
  unfold Filling.matrix at h
  split at h
  · obtain ⟨-, -, h⟩ := except_bind_eq_ok.mp h
    cases h
    exact ⟨rfl, rfl⟩
  · obtain ⟨-, -, h⟩ := except_bind_eq_ok.mp h
    obtain ⟨cell, -, h⟩ := except_bind_eq_ok.mp h
    obtain ⟨-, -, h⟩ := except_bind_eq_ok.mp h
    cases h
    exact ⟨Tensor.elementType_convert _ _, Tensor.dims_convert _ _⟩

namespace Migration

/-- The matrix `t` is `stored` with a row of zeros in front. -/
structure Prepended (stored : Tensor) (rows cols : Nat) (t : Tensor) : Prop where
  elementType_eq : t.elementType = stored.elementType
  dims_eq : t.dims = [rows + 1, cols]
  data_eq : t.data = List.replicate (cols * stored.elementType.width) 0 ++ stored.data
  contiguous_eq : t.contiguous = true

/-- The block that a matrix takes with a row in front. -/
def grownBytes (type : DataType) (rows cols : Nat) : Nat := (rows + 1) * (cols * type.width)

section PrependZeroRow

variable {stored : Tensor} {rows cols : Nat} {type : DataType}
  (hd : stored.dims = [rows, cols]) (he : stored.elementType = .storable type)
include hd he

theorem length_data_storable : stored.data.length = rows * (cols * type.width) := by
  rw [stored.length_data, hd, he, cellCount_pair, Nat.mul_assoc]
  rfl

/-- A row is put in front of a matrix with storable cells, if there is a block for the two. -/
theorem prependZeroRow_of_storable : ∃ t, Prepended stored rows cols t ∧
    prependZeroRow stored = allocate (grownBytes type rows cols) >>= fun _ => .ok t := by
  have ht : stored.elementType.dataType? = some type := ElementType.dataType?_eq_some.mpr he
  obtain ⟨t, hs, he', hd', hb, hc⟩ :=
    Tensor.stack_of_agree (show (Tensor.zeroed type 1 cols).dims = 1 :: [cols] from rfl) hd he.symm
  have hrow : (Tensor.zeroed type 1 cols).data = List.replicate (cols * type.width) 0 := by
    simp [Tensor.zeroed]
  refine ⟨t, ⟨he', by rw [hd', Nat.add_comm], ?_, hc⟩, ?_⟩
  · rw [hb, hrow, he]
    rfl
  have hzeros : Tensor.zeros type 1 cols =
      allocate (cols * type.width) >>= fun _ => .ok (Tensor.zeroed type 1 cols) := by
    rw [Tensor.zeros, Nat.one_mul]
  have hprepend : prependZeroRow stored = Tensor.zeros type 1 cols >>= fun row => row.stack stored := by
    unfold prependZeroRow
    rw [Tensor.rowsCols_eq_ok.mpr hd]
    dsimp only [bind, Except.bind]
    rw [ht]
  have hsum : (Tensor.zeroed type 1 cols).data.length + stored.data.length =
      grownBytes type rows cols := by
    rw [hrow, List.length_replicate, length_data_storable hd he, grownBytes, Nat.succ_mul,
      Nat.add_comm]
  rw [hsum] at hs
  rw [hprepend, hzeros]
  rcases Nat.lt_or_ge (cols * type.width) blockLimit with hrow | hrow
  · rw [allocate_of_lt hrow]
    exact hs
  · have hle : blockLimit ≤ grownBytes type rows cols :=
      Nat.le_trans hrow (Nat.le_mul_of_pos_left _ (Nat.succ_pos rows))
    rw [allocate_of_le hrow, allocate_of_le hle]
    rfl

theorem prependZeroRow_of_fits (h : grownBytes type rows cols < blockLimit) :
    ∃ t, prependZeroRow stored = .ok t ∧ Prepended stored rows cols t := by
  obtain ⟨t, ht, hp⟩ := prependZeroRow_of_storable hd he
  rw [allocate_of_lt h] at hp
  exact ⟨t, hp, ht⟩

theorem prependZeroRow_outgrown (h : blockLimit ≤ grownBytes type rows cols) :
    prependZeroRow stored = .error .outOfMemory := by
  obtain ⟨t, -, hp⟩ := prependZeroRow_of_storable hd he
  rw [hp, allocate_of_le h]
  rfl

end PrependZeroRow

/-- A row is put in front of a matrix with storable cells, and of no other. -/
theorem prependZeroRow_eq_ok {stored t : Tensor} (h : prependZeroRow stored = .ok t) :
    ∃ rows cols type, stored.dims = [rows, cols] ∧ stored.elementType = .storable type ∧
      grownBytes type rows cols < blockLimit ∧ Prepended stored rows cols t := by
  have h' := h
  unfold prependZeroRow at h'
  obtain ⟨⟨rows, cols⟩, hr, h'⟩ := except_bind_eq_ok.mp h'
  have hd := Tensor.rowsCols_eq_ok.mp hr
  cases ht : stored.elementType.dataType? with
  | none =>
    rw [ht] at h'
    cases h'
  | some type =>
    have he := ElementType.dataType?_eq_some.mp ht
    rcases Nat.lt_or_ge (grownBytes type rows cols) blockLimit with hfits | houtgrown
    · obtain ⟨t', ht', hp⟩ := prependZeroRow_of_fits hd he hfits
      rw [h] at ht'
      cases ht'
      exact ⟨rows, cols, type, hd, he, hfits, hp⟩
    · rw [prependZeroRow_outgrown hd he houtgrown] at h
      cases h

theorem prepended_of_dims {stored t : Tensor} {rows cols : Nat} (hd : stored.dims = [rows, cols])
    (h : prependZeroRow stored = .ok t) : Prepended stored rows cols t := by
  obtain ⟨rows', cols', -, hd', -, -, hp⟩ := prependZeroRow_eq_ok h
  rw [hd] at hd'
  cases hd'
  exact hp

namespace Prepended

variable {stored t : Tensor} {rows cols : Nat}

theorem row_zero (h : Prepended stored rows cols t) :
    t.row 0 = List.replicate (cols * stored.elementType.width) 0 := by
  rw [Tensor.row_pair h.dims_eq, h.elementType_eq, h.data_eq, Nat.zero_mul, List.drop_zero,
    List.take_left' List.length_replicate]

/-- Every old row is found one further down. -/
theorem row_succ (h : Prepended stored rows cols t) (hd : stored.dims = [rows, cols]) (k : Nat) :
    t.row (k + 1) = stored.row k := by
  rw [Tensor.row_pair h.dims_eq, Tensor.row_pair hd, h.elementType_eq, h.data_eq, Nat.succ_mul,
    Nat.add_comm, ← List.drop_drop, List.drop_left' List.length_replicate]

end Prepended
end Migration
end VectorTable
