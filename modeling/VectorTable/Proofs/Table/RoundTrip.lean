import VectorTable.Proofs.Table.Coherence

/-! Saving a table and restoring it. Coherence is what keeps every guard of the
writer and every check of the reader silent; the only limits left are those of the
format on the length of an item and on the size of a matrix. -/
namespace VectorTable.Table

variable {α : Type} [DecidableEq α] [Item α]

omit [DecidableEq α] in
theorem Coherent.length_entries_lt {t : Table α} (h : t.Coherent) : t.entries.length < 2 ^ 31 := by
  have ha : Assigned 1 (maxSlot.toNat + 1) t.entries := by
    refine ⟨?_, h.index.assigned.items_nodup, h.index.assigned.slots_nodup⟩
    intro e he
    exact ⟨(h.index.assigned.range e he).1,
      Nat.lt_succ_of_le (UInt32.le_iff_toNat_le.mp (h.slots e he))⟩
  have hl := ha.length_le
  have hm : maxSlot.toNat = 2 ^ 31 - 1 := rfl
  omega

omit [DecidableEq α] in
theorem Coherent.image_storable {t : Table α} (h : t.Coherent)
    (hi : ∀ e ∈ t.entries, (Item.encode e.1).length ≤ Wire.maxBytes) : t.image.Storable :=
  ⟨h.inputShapes, hi, h.slots, h.length_entries_lt⟩

omit [DecidableEq α] in
theorem save_iff_writes {t : Table α} {bytes : List UInt8} :
    (t.save none).result = .ok bytes ↔ Writes t.image.write bytes := by
  constructor
  · intro h
    obtain ⟨_, hw, h⟩ := Run.bind_eq_ok.mp h
    cases h
    exact .of_output hw
  · intro hw
    exact Run.bind_eq_ok.mpr ⟨bytes, hw.output, rfl⟩

omit [DecidableEq α] in
theorem head_of_save {t : Table α} {bytes : List UInt8} (h : (t.save none).result = .ok bytes) :
    bytes.head? = some currentVersion := by
  obtain ⟨-, htrail⟩ := save_iff_writes.mp h
  have hversion : (Wire.writeU8 currentVersion).result = .ok () := rfl
  rw [← htrail, Image.write, Run.trail_bind_ok _ hversion]
  rfl

omit [DecidableEq α] in
/-- The bytes of a table are those of its header and those of its matrix. -/
theorem Coherent.save_eq_ok [LawfulItem α] {t : Table α} (h : t.Coherent)
    (hi : ∀ e ∈ t.entries, (Item.encode e.1).length ≤ Wire.maxBytes)
    (hr : t.numItems < 2 ^ 63) (hc : t.width < 2 ^ 63) (hb : t.matrix.data.length < 2 ^ 63) :
    ∃ bytes, (t.save none).result = .ok bytes ∧ ∀ rest ending,
      Persisted.Holds ⟨bytes ++ rest, ending⟩ t.image.header t.matrix.rowMajor ⟨rest, ending⟩ := by
  obtain ⟨type, hm⟩ := h.matrix
  obtain ⟨hw, hread⟩ := Persisted.holds_of_image (h.image_storable hi) hm hr hc hb
  exact ⟨_, save_iff_writes.mpr hw, hread⟩

/-- A table that was saved is restored as it was, with the new policy and its matrix
in memory row by row, and nothing of the source is left over. -/
theorem restore_save [LawfulItem α] {t : Table α} (h : t.Reachable)
    (hi : ∀ e ∈ t.entries, (Item.encode e.1).length ≤ Wire.maxBytes)
    (hr : t.numItems < 2 ^ 63) (hc : t.width < 2 ^ 63) (hb : t.matrix.data.length < 2 ^ 63) :
    ∃ bytes, (t.save none).result = .ok bytes ∧ ∀ fallthrough rest ending,
      (restore ⟨bytes ++ rest, ending⟩ fallthrough).result =
        .ok ({ t with fallthrough, matrix := t.matrix.rowMajor }, ⟨rest, ending⟩) := by
  have hcoh := h.coherent
  obtain ⟨type, hm⟩ := hcoh.matrix
  obtain ⟨bytes, hs, hholds⟩ := hcoh.save_eq_ok hi hr hc hb
  refine ⟨bytes, hs, ?_⟩
  intro fallthrough rest ending
  have hindex : Persisted.indexOf (some t.entries) false t.numItems = .ok (some t.index) :=
    Persisted.indexOf_kept.mpr ⟨t.index, hcoh.index.ofEntries_entries, rfl⟩
  have hdims : t.matrix.rowMajor.dims = [t.numItems, t.width] := hm.dims_eq
  have hkept :
      Migration.needsRetrofit t.image.header.version t.image.header.zeroReserved = false := rfl
  have hassemble := (Persisted.assemble_kept hdims hkept).mpr
    ⟨hcoh.index.numItems_pos, some t.index, hindex, rfl⟩
  refine restore_eq_ok.mpr ⟨_, type, Persisted.read_eq_ok.mpr ⟨_, _, hholds rest ending, hassemble⟩,
    matrixDataType_eq_ok.mpr hm.elementType_eq, ?_⟩
  exact applied_eq_ok.mpr ⟨t.index, t.dataType, rfl, rfl, rfl⟩

/-- A table around a transposed matrix, whose cells do not lie row by row. -/
def transposed : Table UInt64 :=
  ⟨⟨[(5, 1), (9, 2)], 3⟩, ⟨.storable .uint8, [3, 2], [1, 4, 2, 5, 3, 6], false, rfl⟩, 2, .uint8,
    false, .none, defaultShapes⟩

theorem reachable_transposed : transposed.Reachable := by
  have h : (ofPretrained transposed.matrix [5, 9] .none).result =
    .ok (transposed.withSparseGrad true) := rfl
  exact (Reachable.ofPretrained h).withSparseGrad false

theorem restore_save_transposed : ∃ bytes, (transposed.save none).result = .ok bytes ∧
    (restore ⟨bytes, .endOfData⟩ .defaultRow).result =
      .ok ({ transposed with fallthrough := .defaultRow, matrix := transposed.matrix.rowMajor },
        ⟨[], .endOfData⟩) := by
  have hi : ∀ e ∈ transposed.entries, (Item.encode e.1).length ≤ Wire.maxBytes := by
    intro e _
    show (bigEndian 8 e.1.toNat).length ≤ Wire.maxBytes
    rw [length_bigEndian]
    decide
  obtain ⟨bytes, hs, hr⟩ := restore_save reachable_transposed hi (by decide) (by decide) (by decide)
  have h := hr .defaultRow [] .endOfData
  rw [List.append_nil] at h
  exact ⟨bytes, hs, h⟩

end VectorTable.Table
