import VectorTable.Proofs.Header

/-! Files as a whole. A source that parses holds a header and a matrix; putting
the two together succeeds exactly if the slots fit the rows. Whatever was read
is sound: its index is valid, its matrix has a row for every slot, and it has the
fields of its version. -/
namespace VectorTable

namespace Migration

theorem shift_le_maxSlot {α : Type} {e : α × Slot} (h : e.2 < maxSlot) : (shift e).2 ≤ maxSlot := by
  have hn := UInt32.lt_iff_toNat_lt.mp h
  rw [UInt32.le_iff_toNat_le, toNat_shift h]
  exact hn

theorem migrate_kept {version : UInt8} {zeroReserved : Option Bool} {stored : Tensor}
    (h : needsRetrofit version zeroReserved = false) :
    migrate version zeroReserved stored = .ok (stored, false) := by
  rw [migrate, h]
  rfl

theorem migrate_retrofitted {version : UInt8} {zeroReserved : Option Bool} {stored matrix : Tensor}
    {changed : Bool} (h : needsRetrofit version zeroReserved = true) :
    migrate version zeroReserved stored = .ok (matrix, changed) ↔
      prependZeroRow stored = .ok matrix ∧ changed = true := by
  rw [migrate, h, if_pos rfl, except_map_eq_ok]
  constructor
  · rintro ⟨t, ht, h⟩
    cases h
    exact ⟨ht, rfl⟩
  · rintro ⟨ht, rfl⟩
    exact ⟨matrix, ht, rfl⟩

end Migration

namespace Persisted

variable {α : Type} [Item α]

/-- A source that parses: a header, a named matrix and the rest. -/
def Holds (source : Source) (header : Header α) (stored : Tensor) (rest : Source) : Prop :=
  ∃ after name, Header.read source = .ok (header, after) ∧
    Parameter.read after = .ok ((name, stored), rest)

theorem Holds.form {source rest : Source} {header : Header α} {stored : Tensor}
    (h : Holds source header stored rest) : header.Form := by
  obtain ⟨after, name, hh, -⟩ := h
  exact Header.form_of_read hh

theorem Holds.head {source rest : Source} {header : Header α} {stored : Tensor}
    (h : Holds source header stored rest) : source.bytes.head? = some header.version := by
  obtain ⟨after, name, hh, -⟩ := h
  exact Header.head_of_read hh

theorem Holds.storable {source rest : Source} {header : Header α} {stored : Tensor}
    (h : Holds source header stored rest) : ∃ type rows cols, stored.Storable type rows cols := by
  obtain ⟨after, name, -, hp⟩ := h
  obtain ⟨m, -, hm⟩ := Parameter.exact_read.layout hp
  obtain ⟨-, rfl⟩ := Prod.mk.inj hm
  exact ⟨m.typeName.type, m.rows, m.cols, rfl, rfl⟩

theorem Holds.unique {source rest rest' : Source} {header header' : Header α}
    {stored stored' : Tensor} (h : Holds source header stored rest)
    (h' : Holds source header' stored' rest') :
    header = header' ∧ stored = stored' ∧ rest = rest' := by
  obtain ⟨after, name, hh, hp⟩ := h
  obtain ⟨after', name', hh', hp'⟩ := h'
  rw [hh] at hh'
  cases hh'
  rw [hp] at hp'
  cases hp'
  exact ⟨rfl, rfl, rfl⟩

/-- What an image within the limits leaves in a file is its header and its matrix. -/
theorem holds_of_image [LawfulItem α] {image : Image α} {type : DataType} {rows cols : Nat}
    (h : image.Storable) (hm : image.matrix.Storable type rows cols) (hr : rows < 2 ^ 63)
    (hc : cols < 2 ^ 63) (hb : image.matrix.data.length < 2 ^ 63) :
    Writes image.write (image.layout type) ∧ ∀ rest ending, Holds
      ⟨image.layout type ++ rest, ending⟩ image.header image.matrix.rowMajor ⟨rest, ending⟩ := by
  have hname : (Utf8.encode parameterName).length < 2 ^ 16 := by decide
  obtain ⟨front, hw, hread⟩ := h.carries_header
  obtain ⟨back, hw', hread'⟩ := Parameter.carries hm hname hr hc hb
  have hwrite : Writes image.write (front ++ back) := by
    rw [Image.write_eq]
    exact hw.bind hw'
  obtain ⟨-, hbytes⟩ := (Image.leaves hm.elementType_eq _).mp hwrite
  rw [← hbytes]
  refine ⟨hwrite, fun rest ending => ⟨⟨back ++ rest, ending⟩, parameterName, ?_, ?_⟩⟩
  · rw [List.append_assoc]
    exact hread (back ++ rest) ending
  · exact hread' rest ending

variable [DecidableEq α]

section Index

variable {entries : List (α × Slot)} {numItems : Nat} {index : Option (Index α)}

theorem indexOf_kept : indexOf (some entries) false numItems = .ok index ↔
    ∃ i, Index.ofEntries entries numItems = .ok i ∧ some i = index := by
  show some <$> Index.ofEntries entries numItems = .ok index ↔ _
  exact except_map_eq_ok

theorem indexOf_shifted : indexOf (some entries) true numItems = .ok index ↔
    (∀ e ∈ entries, e.2 < maxSlot) ∧
      ∃ i, Index.ofEntries (entries.map Migration.shift) numItems = .ok i ∧ some i = index := by
  show (Migration.shiftSlots entries >>= fun moved => some <$> Index.ofEntries moved numItems) =
    .ok index ↔ _
  rw [except_bind_eq_ok]
  constructor
  · rintro ⟨moved, hm, h⟩
    obtain ⟨hb, rfl⟩ := Migration.shiftSlots_eq_ok.mp hm
    exact ⟨hb, except_map_eq_ok.mp h⟩
  · rintro ⟨hb, h⟩
    exact ⟨_, Migration.shiftSlots_eq_ok.mpr ⟨hb, rfl⟩, except_map_eq_ok.mpr h⟩

/-- The entries of the file, moved or not, numbered by the index. -/
theorem indexOf_sound {retrofitted : Bool} {i : Index α} (hf : SlotsFit entries)
    (h : indexOf (some entries) retrofitted numItems = .ok index) (hi : index = some i) :
    i.Valid ∧ SlotsFit i.entries ∧ i.numItems = numItems := by
  cases retrofitted with
  | false =>
    obtain ⟨j, hj, rfl⟩ := indexOf_kept.mp h
    cases hi
    refine ⟨Index.valid_of_ofEntries hj, ?_, Index.numItems_of_ofEntries hj⟩
    intro e he
    exact hf e ((Index.perm_of_ofEntries hj).mem_iff.mp he)
  | true =>
    obtain ⟨hb, j, hj, rfl⟩ := indexOf_shifted.mp h
    cases hi
    refine ⟨Index.valid_of_ofEntries hj, ?_, Index.numItems_of_ofEntries hj⟩
    intro e he
    obtain ⟨e', he', rfl⟩ := List.mem_map.mp ((Index.perm_of_ofEntries hj).mem_iff.mp he)
    exact Migration.shift_le_maxSlot (hb e' he')

end Index

/-- Reading a file, what it logs left aside. -/
def reader : Reader (Persisted α) := do
  let header ← Header.read
  let (_, stored) ← Parameter.read
  Reader.ofExcept (assemble header stored).result

theorem result_read (source : Source) :
    (read source).result = (reader : Reader (Persisted α)) source := by
  unfold read unpack reader
  rw [Run.result_bind, Run.result_bind, Run.result_liftM]
  show _ = Header.read source >>= fun x =>
    (Parameter.read >>= fun y => Reader.ofExcept (assemble x.1 y.2).result) x.2
  rw [bind_assoc]
  congr 1
  funext x
  dsimp only
  rw [Run.result_telling, Run.result_bind, Run.result_liftM]
  show _ = Parameter.read x.2 >>= fun y => Reader.ofExcept (assemble x.1 y.1.2).result y.2
  rw [bind_assoc]
  congr 1
  funext y
  rw [Run.result_telling, Run.result_pure]
  show ((assemble x.1 y.1.2) >>= fun persisted => pure (persisted, y.2)).result = _
  rw [Run.result_bind]
  cases (assemble x.1 y.1.2).result <;> rfl

theorem read_eq_ok {source rest : Source} {p : Persisted α} :
    (read source).result = .ok (p, rest) ↔
      ∃ header stored, Holds source header stored rest ∧
        (assemble header stored).result = .ok p := by
  rw [result_read]
  constructor
  · intro h
    obtain ⟨header, after, hh, h1⟩ := Reader.bind_eq_ok.mp h
    obtain ⟨⟨name, stored⟩, rest', hp, h2⟩ := Reader.bind_eq_ok.mp h1
    obtain ⟨p', ha, h3⟩ := except_map_eq_ok.mp h2
    cases h3
    exact ⟨header, stored, ⟨after, name, hh, hp⟩, ha⟩
  · rintro ⟨header, stored, ⟨after, name, hh, hp⟩, ha⟩
    refine Reader.bind_eq_ok.mpr ⟨header, after, hh, Reader.bind_eq_ok.mpr ⟨_, rest, hp, ?_⟩⟩
    exact except_map_eq_ok.mpr ⟨p, ha, rfl⟩

theorem assemble_eq_ok {header : Header α} {stored : Tensor} {p : Persisted α} :
    (assemble header stored).result = .ok p ↔
      ∃ rows cols matrix retrofitted numItems width index, stored.dims = [rows, cols] ∧
        Migration.migrate header.version header.zeroReserved stored = .ok (matrix, retrofitted) ∧
        matrix.dims = [numItems, width] ∧ 1 ≤ numItems ∧
        indexOf header.entries retrofitted numItems = .ok index ∧
        p = ⟨header.version, header.inputShapes, header.sparseGrad, header.dataType, index, matrix,
          numItems, width, retrofitted⟩ := by
  unfold assemble
  constructor
  · intro h
    obtain ⟨⟨rows, cols⟩, hd, h⟩ := Run.bind_eq_ok.mp h
    obtain ⟨⟨matrix, retrofitted⟩, hm, h⟩ := Run.bind_eq_ok.mp h
    obtain ⟨⟨numItems, width⟩, hd', h⟩ := Run.bind_eq_ok.mp h
    dsimp only at h
    by_cases h0 : numItems = 0
    · rw [if_pos h0] at h
      cases h
    · rw [if_neg h0, Run.result_telling] at h
      obtain ⟨index, hi, h⟩ := Run.bind_eq_ok.mp h
      cases h
      exact ⟨rows, cols, matrix, retrofitted, numItems, width, index, Tensor.rowsCols_eq_ok.mp hd,
        hm, Tensor.rowsCols_eq_ok.mp hd', by omega, hi, rfl⟩
  · rintro ⟨rows, cols, matrix, retrofitted, numItems, width, index, hd, hm, hd', h0, hi, rfl⟩
    refine Run.bind_eq_ok.mpr ⟨(rows, cols), Tensor.rowsCols_eq_ok.mpr hd, ?_⟩
    refine Run.bind_eq_ok.mpr ⟨(matrix, retrofitted), hm, ?_⟩
    refine Run.bind_eq_ok.mpr ⟨(numItems, width), Tensor.rowsCols_eq_ok.mpr hd', ?_⟩
    dsimp only
    rw [if_neg (by omega), Run.result_telling]
    exact Run.bind_eq_ok.mpr ⟨index, hi, rfl⟩

/-- A matrix of the current layout is taken as it is. -/
theorem assemble_kept {header : Header α} {stored : Tensor} {p : Persisted α} {rows cols : Nat}
    (hd : stored.dims = [rows, cols])
    (hn : Migration.needsRetrofit header.version header.zeroReserved = false) :
    (assemble header stored).result = .ok p ↔
      1 ≤ rows ∧ ∃ index, indexOf header.entries false rows = .ok index ∧
        p = ⟨header.version, header.inputShapes, header.sparseGrad, header.dataType, index, stored,
          rows, cols, false⟩ := by
  rw [assemble_eq_ok, Migration.migrate_kept hn]
  constructor
  · rintro ⟨_, _, matrix, retrofitted, numItems, width, index, -, hm, hd', h1, hi, rfl⟩
    cases hm
    rw [hd] at hd'
    cases hd'
    exact ⟨h1, index, hi, rfl⟩
  · rintro ⟨h1, index, hi, rfl⟩
    exact ⟨rows, cols, stored, false, rows, cols, index, hd, rfl, hd, h1, hi, rfl⟩

/-- An older matrix gets its row of zeros. -/
theorem assemble_retrofitted {header : Header α} {stored : Tensor} {p : Persisted α}
    {type : DataType} {rows cols : Nat} (hs : stored.Storable type rows cols)
    (hn : Migration.needsRetrofit header.version header.zeroReserved = true) :
    (assemble header stored).result = .ok p ↔
      ∃ matrix index, Migration.prependZeroRow stored = .ok matrix ∧
        indexOf header.entries true (rows + 1) = .ok index ∧
        p = ⟨header.version, header.inputShapes, header.sparseGrad, header.dataType, index, matrix,
          rows + 1, cols, true⟩ := by
  rw [assemble_eq_ok]
  constructor
  · rintro ⟨_, _, matrix, retrofitted, numItems, width, index, -, hm, hd', -, hi, rfl⟩
    obtain ⟨hz, rfl⟩ := (Migration.migrate_retrofitted hn).mp hm
    rw [(Migration.prepended_of_dims hs.dims_eq hz).dims_eq] at hd'
    cases hd'
    exact ⟨matrix, index, hz, hi, rfl⟩
  · rintro ⟨matrix, index, hz, hi, rfl⟩
    have hp := Migration.prepended_of_dims hs.dims_eq hz
    exact ⟨rows, cols, matrix, true, rows + 1, cols, index, hs.dims_eq,
      (Migration.migrate_retrofitted hn).mpr ⟨hz, rfl⟩, hp.dims_eq, Nat.le_add_left _ _, hi, rfl⟩

/-- What holds of everything that was read. -/
structure Sound (p : Persisted α) : Prop where
  storable : ∃ type, p.matrix.Storable type p.numItems p.width
  numItems_pos : 1 ≤ p.numItems
  index : ∀ i, p.index = some i → i.Valid ∧ SlotsFit i.entries ∧ i.numItems = p.numItems
  inputShapes : ∀ shapes, p.inputShapes = some shapes → Shape.AllStorable shapes

/-- Which fields there are, by version. -/
structure Versioned (p : Persisted α) : Prop where
  index : p.index.isSome = decide (3 ≤ p.version)
  dataType : p.dataType.isSome = decide (3 ≤ p.version)
  sparseGrad : p.sparseGrad.isSome = decide (3 ≤ p.version)
  inputShapes : p.inputShapes.isSome = decide (2 ≤ p.version)

theorem sound_of_assemble {header : Header α} {stored : Tensor} {p : Persisted α}
    {type : DataType} {rows cols : Nat} (hf : header.Form) (hs : stored.Storable type rows cols)
    (h : (assemble header stored).result = .ok p) : p.Sound := by
  have hshapes : ∀ shapes, header.inputShapes = some shapes → Shape.AllStorable shapes := by
    intro shapes h
    cases hf <;> cases h <;> assumption
  have hentries : ∀ entries, header.entries = some entries → SlotsFit entries := by
    intro entries h
    cases hf <;> cases h <;> assumption
  have hindex : ∀ {retrofitted numItems index},
      indexOf header.entries retrofitted numItems = .ok index →
      ∀ i, index = some i → i.Valid ∧ SlotsFit i.entries ∧ i.numItems = numItems := by
    intro retrofitted numItems index hi i hii
    cases he : header.entries with
    | none =>
      rw [he] at hi
      cases hi
      cases hii
    | some entries =>
      rw [he] at hi
      exact indexOf_sound (hentries entries he) hi hii
  cases hn : Migration.needsRetrofit header.version header.zeroReserved with
  | false =>
    obtain ⟨h1, index, hi, rfl⟩ := (assemble_kept hs.dims_eq hn).mp h
    exact ⟨⟨type, hs⟩, h1, hindex hi, hshapes⟩
  | true =>
    obtain ⟨matrix, index, hm, hi, rfl⟩ := (assemble_retrofitted hs hn).mp h
    have hp := Migration.prepended_of_dims hs.dims_eq hm
    refine ⟨⟨type, ?_, hp.dims_eq⟩, Nat.le_add_left _ _, hindex hi, hshapes⟩
    rw [hp.elementType_eq, hs.elementType_eq]

theorem sound_of_read {source rest : Source} {p : Persisted α}
    (h : (read source).result = .ok (p, rest)) : p.Sound := by
  obtain ⟨header, stored, hh, ha⟩ := read_eq_ok.mp h
  obtain ⟨type, rows, cols, hs⟩ := hh.storable
  exact sound_of_assemble hh.form hs ha

theorem indexOf_isSome {entries : Option (List (α × Slot))} {retrofitted : Bool} {numItems : Nat}
    {index : Option (Index α)} (h : indexOf entries retrofitted numItems = .ok index) :
    index.isSome = entries.isSome := by
  cases entries with
  | none =>
    cases h
    rfl
  | some entries =>
    cases retrofitted with
    | false =>
      obtain ⟨i, -, rfl⟩ := indexOf_kept.mp h
      rfl
    | true =>
      obtain ⟨-, i, -, rfl⟩ := indexOf_shifted.mp h
      rfl

theorem versioned_of_read {source rest : Source} {p : Persisted α}
    (h : (read source).result = .ok (p, rest)) : p.Versioned := by
  obtain ⟨header, stored, hh, ha⟩ := read_eq_ok.mp h
  obtain ⟨-, -, matrix, retrofitted, numItems, width, index, -, -, -, -, hi, rfl⟩ :=
    assemble_eq_ok.mp ha
  have hsome := indexOf_isSome hi
  cases hh.form with
  | one => exact ⟨hsome, rfl, rfl, rfl⟩
  | two hs => exact ⟨hsome, rfl, rfl, rfl⟩
  | three hs he zeroReserved sparseGrad type => exact ⟨hsome, rfl, rfl, rfl⟩
  | four hs he sparseGrad type => exact ⟨hsome, rfl, rfl, rfl⟩

theorem head_of_read {source rest : Source} {p : Persisted α}
    (h : (read source).result = .ok (p, rest)) : source.bytes.head? = some p.version := by
  obtain ⟨header, stored, hh, ha⟩ := read_eq_ok.mp h
  obtain ⟨-, -, matrix, retrofitted, numItems, width, index, -, -, -, -, -, rfl⟩ :=
    assemble_eq_ok.mp ha
  exact hh.head

end Persisted
end VectorTable
