import VectorTable.Proofs.Decoding
import VectorTable.Proofs.Table.LiveItems

/-! Tables from bytes that may say anything. To read a table fails only for what the bytes say,
and once a header and a matrix are read, nothing but the entries can be wrong with them. What the
bytes can do is ask for too much: a matrix without rows may be as wide as it likes, and an old
layout gets a row of that width. -/
namespace VectorTable

namespace Persisted

variable {α : Type} [Item α]

/-- All that is done with a header and a matrix that were read, short of checking the entries,
succeeds, unless they outgrow memory; the slots that are moved go up by one and stay within those
that a file can hold. -/
structure Seamless (source : Source) (header : Header α) (stored : Tensor) : Prop where
  sides : ∃ rows cols, stored.rowsCols = .ok (rows, cols)
  migrates : (¬ ∃ type rows cols, Outgrowing source header stored type rows cols) →
    ∃ matrix retrofitted numItems width type,
      Migration.migrate header.version header.zeroReserved stored = .ok (matrix, retrofitted) ∧
      matrix.rowsCols = .ok (numItems, width) ∧ Table.matrixDataType matrix = .ok type
  shifts : ∀ entries moved, header.entries = some entries →
    Migration.shiftSlots entries = .ok moved → moved = entries.map Migration.shift ∧
      ∀ e ∈ entries, (Migration.shift e).2.toNat = e.2.toNat + 1 ∧ (Migration.shift e).2 ≤ maxSlot

theorem Holds.seamless {source rest : Source} {header : Header α} {stored : Tensor}
    (h : Holds source header stored rest) : Seamless source header stored := by
  obtain ⟨type, rows, cols, hs⟩ := h.storable
  refine ⟨⟨rows, cols, Tensor.rowsCols_eq_ok.mpr hs.dims_eq⟩, ?_, ?_⟩
  · intro hfits
    have hroom : ¬ Migration.Outgrown header.version header.zeroReserved type rows cols :=
      fun houtgrown => hfits ⟨type, rows, cols, ⟨rest, h⟩, hs, houtgrown⟩
    obtain ⟨matrix, retrofitted, numItems, hm, hsm⟩ := Migration.migrate_of_storable hs hroom
    exact ⟨matrix, retrofitted, numItems, cols, type, hm, Tensor.rowsCols_eq_ok.mpr hsm.dims_eq,
      Table.matrixDataType_eq_ok.mpr hsm.elementType_eq⟩
  · intro entries moved _ hm
    obtain ⟨hb, rfl⟩ := Migration.shiftSlots_eq_ok.mp hm
    exact ⟨rfl, fun e he => ⟨Migration.toNat_shift (hb e he), Migration.shift_le_maxSlot (hb e he)⟩⟩

/-- There is no more data in a matrix than there are bytes in its file. -/
theorem Holds.length_data_le {source rest : Source} {header : Header α} {stored : Tensor}
    (h : Holds source header stored rest) : stored.data.length ≤ source.bytes.length := by
  obtain ⟨after, name, hh, hp⟩ := h
  obtain ⟨head, rfl, -⟩ := Header.exact_read.layout hh
  obtain ⟨m, rfl, hm⟩ := Parameter.exact_read.layout hp
  obtain ⟨-, rfl⟩ := Prod.mk.inj hm
  have hbytes := congrArg List.length (Parameter.bytes_matrix m)
  simp only [List.length_append] at hbytes
  simp only [Source.behind, List.length_append, Layout.Matrix.tensor]
  omega

/-- Of the files that there can be, only those whose matrix has no rows ask for too much: any
other matrix is about as long as its file. -/
theorem Outgrowing.rows_eq_zero {source : Source} {header : Header α} {stored : Tensor}
    {type : DataType} {rows cols : Nat} (h : Outgrowing source header stored type rows cols)
    (hb : source.bytes.length < 2 ^ 62) : rows = 0 := by
  obtain ⟨rest, hh⟩ := h.holds
  have hdata := stored.length_data
  have hle := hh.length_data_le
  have hlimit : 2 ^ 63 ≤ (rows + 1) * (cols * type.width) := h.outgrown.limit_le
  rw [h.storable.dims_eq, h.storable.elementType_eq, cellCount_pair, Nat.mul_assoc] at hdata
  have hdata : stored.data.length = rows * (cols * type.width) := hdata
  rw [Nat.succ_mul, ← hdata] at hlimit
  by_contra h0
  have hrow : cols * type.width ≤ rows * (cols * type.width) :=
    Nat.le_mul_of_pos_left _ (Nat.pos_of_ne_zero h0)
  omega

/-- A result that the bytes of a source explain: it is there, or they are to blame, or their matrix
outgrows memory, and whenever it does there is no result. -/
structure Explains (α : Type) [Item α] (source : Source) {β : Type} (result : Except Error β) :
    Prop where
  error : ∀ e, result = .error e → e.Decoding ∨ e = .outOfMemory
  outOfMemory_iff : result = .error .outOfMemory ↔ ∃ (header : Header α) (stored : Tensor)
    (type : DataType) (rows cols : Nat), Outgrowing source header stored type rows cols

/-- To go on with what was read does not take more memory. -/
theorem Explains.bind {source : Source} {β γ : Type} {x : Except Error β}
    {f : β → Except Error γ} (h : Explains α source x)
    (hf : ∀ b e, x = .ok b → f b = .error e → e.Decoding) : Explains α source (x >>= f) := by
  refine ⟨fun e he => ?_, ?_⟩
  · rcases except_bind_eq_error.mp he with hx | ⟨b, hx, hb⟩
    · exact h.error e hx
    · exact .inl (hf b e hx hb)
  · rw [← h.outOfMemory_iff]
    constructor
    · intro ho
      rcases except_bind_eq_error.mp ho with hx | ⟨b, hx, hb⟩
      · exact hx
      · cases hf b _ hx hb
    · intro hx
      rw [hx]
      rfl

theorem explains_read [DecidableEq α] (bytes : List UInt8) :
    Explains α ⟨bytes, .endOfData⟩ (read (α := α) ⟨bytes, .endOfData⟩).result := by
  refine ⟨fun e he => ?_, read_eq_outOfMemory⟩
  rcases read_error_cases he with hd | ⟨ho, -⟩
  · exact .inl hd
  · exact .inr ho

end Persisted

namespace Table

variable {α : Type} [DecidableEq α] [Item α]

open Persisted

theorem explains_restore (bytes : List UInt8) (fallthrough : Fallthrough α) :
    Explains α ⟨bytes, .endOfData⟩ (restore ⟨bytes, .endOfData⟩ fallthrough).result := by
  have h := explains_read (α := α) bytes
  rw [result_restore]
  refine h.bind ?_
  rintro ⟨p, rest⟩ e hp he
  -- whatever was read makes a table
  obtain ⟨t, ht⟩ := restore_of_read hp fallthrough
  rw [result_restore, hp] at ht
  cases he.symm.trans ht

theorem explains_load (bytes : List UInt8) (t : Table α) :
    Explains α ⟨bytes, .endOfData⟩ (t.load ⟨bytes, .endOfData⟩).2.result := by
  have h := explains_read (α := α) bytes
  rw [(Prod.mk.inj (t.load_eq ⟨bytes, .endOfData⟩)).2]
  refine h.bind ?_
  rintro ⟨p, rest⟩ e hp he
  obtain ⟨type, hs⟩ := (sound_of_read hp).storable
  obtain ⟨flaw, rfl⟩ := applied_eq_error hs (except_map_eq_error.mp he)
  exact .malformed flaw

/-- To read, to restore or to load a table from any bytes fails only for what the bytes say, and
what is done on the way with a header and a matrix does not fail at all; or the bytes hold an old
layout whose matrix outgrows memory with its new row, which in a file of less than 2^62 bytes
takes a matrix without rows. Exactly then the program ends without an answer. -/
theorem outcome_of_bytes (α : Type) [DecidableEq α] [Item α] (bytes : List UInt8) :
    let source : Source := ⟨bytes, .endOfData⟩
    Explains α source (Persisted.read (α := α) source).result ∧
    (∀ fallthrough : Fallthrough α, Explains α source (restore source fallthrough).result) ∧
    (∀ t : Table α, Explains α source (t.load source).2.result) ∧
    (∀ (header : Header α) stored rest, Holds source header stored rest →
      Seamless source header stored) ∧
    (bytes.length < 2 ^ 62 → ∀ (header : Header α) stored type rows cols,
      Outgrowing source header stored type rows cols → rows = 0 ∧ 2 ^ 63 ≤ cols * type.width) := by
  refine ⟨explains_read bytes, explains_restore bytes, explains_load bytes,
    fun _ _ _ => Holds.seamless, ?_⟩
  intro hb header stored type rows cols h
  obtain rfl := h.rows_eq_zero hb
  have hlimit := h.outgrown.limit_le
  rw [Nat.zero_add, Nat.one_mul] at hlimit
  exact ⟨rfl, hlimit⟩

/-- A byte that is no version. -/
theorem outcome_of_strayByte : ∃ e : Error,
    (Persisted.read (α := String) ⟨[9], .endOfData⟩).result = .error e ∧ e.Decoding := by
  have h : (Persisted.read (α := String) ⟨[9], .endOfData⟩).result =
      .error (.malformed (.encodingVersion 9)) := by cbv
  rcases (outcome_of_bytes String [9]).1.error _ h with hd | ho
  · exact ⟨_, h, hd⟩
  · cases ho

/-- The program does not live to tell what is wrong with the file. -/
theorem outOfMemory_wideFile :
    (Persisted.read (α := UInt32) wideFile).result = .error .outOfMemory ∧
    (restore (α := UInt32) wideFile .none).result = .error .outOfMemory ∧
    (pair.load wideFile).2.result = .error .outOfMemory := by
  have h : ∃ (header : Header UInt32) (stored : Tensor) (type : DataType) (rows cols : Nat),
      Outgrowing wideFile header stored type rows cols := ⟨_, _, _, _, _, outgrowing_wideFile⟩
  exact ⟨(explains_read _).outOfMemory_iff.mpr h, (explains_restore _ _).outOfMemory_iff.mpr h,
    (explains_load _ pair).outOfMemory_iff.mpr h⟩

end Table
end VectorTable
