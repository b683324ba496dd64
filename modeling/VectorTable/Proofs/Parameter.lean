import VectorTable.Parameter
import VectorTable.Proofs.Shape
import VectorTable.Proofs.Tensor

/-! A parameter carries its matrix: all of it but the place of its cells in
memory, which are row by row once they have been read. The data of a matrix have
two sides and storable cells. -/
namespace VectorTable

theorem DataType.lowerAscii_name (type : DataType) : lowerAscii type.name = type.name := by
  apply String.toList_inj.mp
  rw [lowerAscii, String.toList_map]
  cases type <;> decide

theorem DataType.ofName?_eq_some {name : String} {type : DataType} :
    ofName? name = some type ↔ name = type.name := by
  constructor
  · intro h
    have hf := List.find?_some h
    exact (beq_iff_eq.mp hf).symm
  · rintro rfl
    cases type <;> decide

theorem DataType.parse_eq_ok {text : String} {type : DataType} :
    parse text = .ok type ↔ lowerAscii text = type.name := by
  rw [← ofName?_eq_some, parse]
  cases ofName? (lowerAscii text) <;> simp

@[simp] theorem DataType.parse_name (type : DataType) : parse type.name = .ok type :=
  parse_eq_ok.mpr type.lowerAscii_name

theorem DataType.length_name_lt (type : DataType) : (Utf8.encode type.name).length < 2 ^ 16 := by
  cases type <;> decide

/-- A matrix as files hold it. -/
structure Tensor.Storable (t : Tensor) (type : DataType) (rows cols : Nat) : Prop where
  elementType_eq : t.elementType = .storable type
  dims_eq : t.dims = [rows, cols]

namespace Parameter

theorem carries_dataType (type : DataType) (what : String) :
    Carries (Wire.writeUtf type.name) (readDataType what) type := by
  refine (Wire.carries_utf type.length_name_lt what).map ?_
  rw [DataType.parse_name]
  intro rest ending
  rfl

theorem carries_marker : Carries (Wire.writeU16 marker) readMarker () :=
  (Wire.carries_u16 marker _).map (Reads.pure ())

theorem carries_version : Carries (Wire.writeU8 version) readVersion () :=
  (Wire.carries_u8 version _).map (Reads.pure ())

theorem sides?_eq_some {shape : Shape} {rows cols : Nat} : sides? shape = some (rows, cols) ↔
    shape.dims = [Int64.ofNat rows, Int64.ofNat cols] ∧ rows < 2 ^ 63 ∧ cols < 2 ^ 63 := by
  constructor
  · intro h
    unfold sides? at h
    split at h
    next r c hd =>
      split_ifs at h with h0
      cases h
      exact ⟨by rw [hd, Int64.ofNat_toNatClampNeg r h0.1, Int64.ofNat_toNatClampNeg c h0.2],
        r.toNatClampNeg_lt, c.toNatClampNeg_lt⟩
    · cases h
  · rintro ⟨hd, hr, hc⟩
    have h : (0 : Int64) ≤ Int64.ofNat rows ∧ (0 : Int64) ≤ Int64.ofNat cols :=
      ⟨Int64.zero_le_ofNat_of_lt hr, Int64.zero_le_ofNat_of_lt hc⟩
    simp only [sides?, hd, if_pos h, Int64.toNatClampNeg_ofNat_of_lt hr,
      Int64.toNatClampNeg_ofNat_of_lt hc]

theorem carries_data {matrix : Tensor} {type : DataType} {rows cols : Nat} {shape : Shape}
    (h : matrix.Storable type rows cols) (hs : sides? shape = some (rows, cols))
    (hb : matrix.data.length < 2 ^ 63) :
    Carries (do Wire.writeI64 (Int64.ofNat matrix.data.length); Writer.put matrix.data)
      (readData type shape) matrix.rowMajor := by
  have hl : matrix.data.length = rows * cols * type.width := by
    rw [matrix.length_data, h.dims_eq, h.elementType_eq, cellCount_pair]
    rfl
  have hcount : rows * cols ≤ rows * cols * type.width := Nat.le_mul_of_pos_right _ type.width_pos
  have hbytes : byteCount? type rows cols = some matrix.data.length := by
    rw [byteCount?, if_pos (by omega), hl]
  have hdeclared : (Int64.ofNat matrix.data.length).toInt = matrix.data.length :=
    Int64.toInt_ofNat_of_lt hb
  have hmatrix :
      Tensor.ofBytes? (.storable type) [rows, cols] matrix.data = some matrix.rowMajor := by
    rw [← h.elementType_eq, ← h.dims_eq]
    exact matrix.ofBytes?_rowMajor
  simp only [readData, hs, hbytes]
  refine (Wire.carries_i64 _ _).bind ?_
  rw [if_neg (fun h => h hdeclared)]
  refine Carries.map ⟨matrix.data, Writes.put _, Reads.upTo rfl⟩ ?_
  rw [hmatrix]
  exact Reads.pure _

theorem carries {matrix : Tensor} {type : DataType} {rows cols : Nat} {name : String}
    (h : matrix.Storable type rows cols) (hn : (Utf8.encode name).length < 2 ^ 16)
    (hr : rows < 2 ^ 63) (hc : cols < 2 ^ 63) (hb : matrix.data.length < 2 ^ 63) :
    Carries (write name matrix) read (name, matrix.rowMajor) := by
  have hs : (Shape.ofSizes [rows, cols]).Storable := by
    constructor
    · simp [Shape.ofSizes, Shape.maxRank]
    · simp [Shape.ofSizes, Utf16.encode]
  unfold write read
  simp only [h.elementType_eq, h.dims_eq, ElementType.dataType?]
  refine carries_marker.bind (carries_version.bind ?_)
  refine (Wire.carries_utf hn _).bind ((carries_dataType type _).bind ?_)
  refine (Shape.carries hs).bind ?_
  have hsides : sides? (Shape.ofSizes [rows, cols]) = some (rows, cols) :=
    sides?_eq_some.mpr ⟨rfl, hr, hc⟩
  exact (carries_data h hsides hb).map (Reads.pure (name, matrix.rowMajor))

/-- The data of a matrix: its sides make it as long as it is said to be. -/
theorem readData_eq_ok {type : DataType} {shape : Shape} {source after : Source} {matrix : Tensor}
    (h : readData type shape source = .ok (matrix, after)) :
    ∃ rows cols declared middle, sides? shape = some (rows, cols) ∧
      Wire.readI64 "matrix byte length" source = .ok (declared, middle) ∧
      declared.toInt = matrix.data.length ∧
      Reader.upTo matrix.data.length middle = .ok (matrix.data, after) ∧
      matrix.Storable type rows cols ∧ matrix.contiguous = true := by
  unfold readData at h
  cases hs : sides? shape with
  | none =>
    rw [hs] at h
    exact absurd h Reader.fail_ne_ok
  | some sides =>
    obtain ⟨rows, cols⟩ := sides
    cases hn : byteCount? type rows cols with
    | none =>
      simp only [hs, hn] at h
      exact absurd h Reader.fail_ne_ok
    | some needed =>
      simp only [hs, hn] at h
      obtain ⟨declared, middle, hi, h⟩ := Reader.bind_eq_ok.mp h
      split_ifs at h with hd
      · exact absurd h Reader.fail_ne_ok
      · obtain ⟨data, s2, hu, h⟩ := Reader.bind_eq_ok.mp h
        cases hm : Tensor.ofBytes? (.storable type) [rows, cols] data with
        | none =>
          rw [hm] at h
          exact absurd h Reader.fail_ne_ok
        | some matrix' =>
          rw [hm] at h
          obtain ⟨rfl, rfl⟩ := Reader.pure_eq_ok.mp h
          obtain ⟨he, hdims, rfl, hc⟩ := Tensor.ofBytes?_eq_some hm
          have hneeded : needed = matrix'.data.length := by
            unfold byteCount? at hn
            split_ifs at hn
            rw [matrix'.length_data, hdims, he, cellCount_pair]
            exact (Option.some.inj hn).symm
          subst hneeded
          exact ⟨rows, cols, declared, middle, rfl, hi, not_not.mp hd, hu, ⟨he, hdims⟩, hc⟩

end Parameter
end VectorTable
