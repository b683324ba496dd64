import VectorTable.Proofs.Decoding

/-! The two layouts of the third version. Files without a reserved row get one,
and every slot moves with its row; files with one come back as they are. In both
cases a file that parses is accepted exactly if its stored slots fit its stored
rows, provided that there is a block of memory for the rows it is to have. -/
namespace VectorTable.Persisted

variable {α : Type} [Item α]

/-- A source that parses, with these entries and a matrix of `rows` rows. -/
def Stores (source : Source) (entries : List (α × Slot)) (stored : Tensor) (rows : Nat)
    (rest : Source) : Prop :=
  ∃ header cols, Holds source header stored rest ∧ header.entries = some entries ∧
    stored.dims = [rows, cols]

section Header

variable {source rest : Source} {header : Header α} {stored : Tensor}

theorem layout_of_flag (hh : Holds source header stored rest) {flag : UInt8}
    (hf : Header.FlagByte source flag) : 3 ≤ header.version ∧
      Migration.needsRetrofit header.version header.zeroReserved = (flag == 0) := by
  obtain ⟨after, name, hh, -⟩ := hh
  obtain ⟨hv, hz⟩ := Header.flag_of_read hf hh
  rw [hv, hz]
  refine ⟨by decide, ?_⟩
  show (!(flag != 0)) = (flag == 0)
  simp [bne]

theorem layout_of_current (hh : Holds source header stored rest)
    (h4 : source.bytes.head? = some 4) : 3 ≤ header.version ∧
      Migration.needsRetrofit header.version header.zeroReserved = false := by
  have hv : header.version = 4 := Option.some.inj (hh.head.symm.trans h4)
  rw [hv]
  exact ⟨by decide, rfl⟩

theorem entries_of_holds (hh : Holds source header stored rest) (hv : 3 ≤ header.version) :
    ∃ entries, header.entries = some entries := by
  cases hh.form with
  | one => exact absurd hv (show ¬ (3 : UInt8) ≤ 1 by decide)
  | two => exact absurd hv (show ¬ (3 : UInt8) ≤ 2 by decide)
  | @three shapes entries _ _ _ _ _ => exact ⟨entries, rfl⟩
  | @four shapes entries _ _ _ _ => exact ⟨entries, rfl⟩

end Header

variable [DecidableEq α]

/-- The index has an entry for each of `entries` and no others. -/
def Indexes (p : Persisted α) (entries : List (α × Slot)) : Prop :=
  ∃ i, p.index = some i ∧ i.entries.Perm entries ∧ ∀ e ∈ entries, i.slot? e.1 = some e.2

theorem indexes_of_ofEntries {p : Persisted α} {entries : List (α × Slot)} {numItems : Nat}
    {i : Index α} (hp : p.index = some i) (h : Index.ofEntries entries numItems = .ok i) :
    p.Indexes entries := by
  have hperm := Index.perm_of_ofEntries h
  refine ⟨i, hp, hperm, ?_⟩
  intro e he
  exact (Index.valid_of_ofEntries h).slot?_eq_some.mpr (hperm.mem_iff.mpr he)

/-- The file got a row of zeros, and its rows and slots moved one further. -/
structure Moved (p : Persisted α) (entries : List (α × Slot)) (stored : Tensor) (rows : Nat) :
    Prop where
  numItems_eq : p.numItems = rows + 1
  dims_eq : p.matrix.dims = (rows + 1) :: stored.dims.tail
  elementType_eq : p.matrix.elementType = stored.elementType
  row_zero : p.matrix.row 0 =
    List.replicate (cellCount stored.dims.tail * stored.elementType.width) 0
  row_succ : ∀ k < rows, p.matrix.row (k + 1) = stored.row k
  indexes : p.Indexes (entries.map Migration.shift)
  item_row : ∀ e ∈ entries, p.matrix.row (Migration.shift e).2.toNat = stored.row e.2.toNat

/-- The file is taken as it stands. -/
structure Kept (p : Persisted α) (entries : List (α × Slot)) (stored : Tensor) (rows : Nat) :
    Prop where
  numItems_eq : p.numItems = rows
  matrix_eq : p.matrix = stored
  indexes : p.Indexes entries

/-- There is a block of memory for a matrix of so many rows and one more. -/
def HasRoom (stored : Tensor) (rows : Nat) : Prop :=
  (rows + 1) * (cellCount stored.dims.tail * stored.elementType.width) < blockLimit

/-- What becomes of a file whose entries and matrix lie side by side: it is read
exactly if they fit, and then `outcome` holds of what was read. -/
def ReadAs (source : Source) (fits : List (α × Slot) → Tensor → Nat → Prop)
    (outcome : Persisted α → List (α × Slot) → Tensor → Nat → Prop) : Prop :=
  (∀ rest, (∃ p : Persisted α, (read source).result = .ok (p, rest)) ↔
    ∃ entries stored rows, Stores source entries stored rows rest ∧ fits entries stored rows) ∧
  ∀ entries stored rows rest p rest', Stores source entries stored rows rest →
    (read source).result = .ok (p, rest') → rest' = rest ∧ outcome p entries stored rows

theorem readAs_of_assemble {source : Source} {fits : List (α × Slot) → Tensor → Nat → Prop}
    {outcome : Persisted α → List (α × Slot) → Tensor → Nat → Prop}
    (h : ∀ {header : Header α} {stored : Tensor} {rest : Source},
      Holds source header stored rest → ∃ entries type rows cols,
      header.entries = some entries ∧ stored.Storable type rows cols ∧
      ((∃ p, (assemble header stored).result = .ok p) ↔ fits entries stored rows) ∧
      ∀ p, (assemble header stored).result = .ok p → outcome p entries stored rows) :
    ReadAs source fits outcome := by
  refine ⟨fun rest => ⟨?_, ?_⟩, ?_⟩
  · rintro ⟨p, hp⟩
    obtain ⟨header, stored, hh, ha⟩ := read_eq_ok.mp hp
    obtain ⟨entries, type, rows, cols, he, hs, hfits, -⟩ := h hh
    exact ⟨entries, stored, rows, ⟨header, cols, hh, he, hs.dims_eq⟩, hfits.mp ⟨p, ha⟩⟩
  · rintro ⟨entries, stored, rows, ⟨header, cols, hh, he, hd⟩, hf⟩
    obtain ⟨entries', type, rows', cols', he', hs, hfits, -⟩ := h hh
    rw [he] at he'
    cases he'
    rw [hs.dims_eq] at hd
    cases hd
    obtain ⟨p, ha⟩ := hfits.mpr hf
    exact ⟨p, read_eq_ok.mpr ⟨header, stored, hh, ha⟩⟩
  · rintro entries stored rows rest p rest' ⟨header, cols, hh, he, hd⟩ hp
    obtain ⟨header', stored', hh', ha⟩ := read_eq_ok.mp hp
    obtain ⟨rfl, rfl, rfl⟩ := hh.unique hh'
    obtain ⟨entries', type, rows', cols', he', hs, -, hout⟩ := h hh
    rw [he] at he'
    cases he'
    rw [hs.dims_eq] at hd
    cases hd
    exact ⟨rfl, hout p ha⟩

section Assemble

variable {header : Header α} {stored : Tensor} {entries : List (α × Slot)} {type : DataType}
  {rows cols : Nat}

omit [Item α] [DecidableEq α] in
theorem hasRoom_iff (hs : stored.Storable type rows cols) :
    HasRoom stored rows ↔ Migration.grownBytes type rows cols < blockLimit := by
  rw [HasRoom, Migration.grownBytes, hs.dims_eq, hs.elementType_eq, List.tail_cons, cellCount,
    List.foldr_cons, List.foldr_nil, Nat.mul_one]
  rfl

theorem assemble_moved_iff (hs : stored.Storable type rows cols)
    (hn : Migration.needsRetrofit header.version header.zeroReserved = true)
    (he : header.entries = some entries) :
    (∃ p, (assemble header stored).result = .ok p) ↔
      Assigned 0 rows entries ∧ (∀ e ∈ entries, e.2 < maxSlot) ∧ HasRoom stored rows := by
  rw [hasRoom_iff hs]
  constructor
  · rintro ⟨p, hp⟩
    obtain ⟨matrix, index, hm, hi, -⟩ := (assemble_retrofitted hs hn).mp hp
    rw [he] at hi
    obtain ⟨hb, i, hi, -⟩ := indexOf_shifted.mp hi
    obtain ⟨-, ha, -⟩ := Index.ofEntries_eq_ok.mp hi
    refine ⟨(Migration.assigned_map_shift hb).mp ha, hb, ?_⟩
    by_contra houtgrown
    rw [Migration.prependZeroRow_outgrown hs.dims_eq hs.elementType_eq
      (Nat.not_lt.mp houtgrown)] at hm
    cases hm
  · rintro ⟨ha, hb, hroom⟩
    obtain ⟨matrix, hm, -⟩ :=
      Migration.prependZeroRow_of_fits hs.dims_eq hs.elementType_eq hroom
    have hi := Index.ofEntries_eq_ok.mpr
      ⟨Nat.le_add_left 1 rows, (Migration.assigned_map_shift hb).mpr ha, rfl⟩
    have hx := indexOf_shifted.mpr ⟨hb, _, hi, rfl⟩
    rw [← he] at hx
    exact ⟨_, (assemble_retrofitted hs hn).mpr ⟨matrix, _, hm, hx, rfl⟩⟩

theorem moved_of_assemble {p : Persisted α} (hs : stored.Storable type rows cols)
    (hn : Migration.needsRetrofit header.version header.zeroReserved = true)
    (he : header.entries = some entries) (hp : (assemble header stored).result = .ok p) :
    p.Moved entries stored rows := by
  obtain ⟨ha, -⟩ := (assemble_moved_iff hs hn he).mp ⟨p, hp⟩
  obtain ⟨matrix, index, hm, hi, rfl⟩ := (assemble_retrofitted hs hn).mp hp
  have hpre := Migration.prepended_of_dims hs.dims_eq hm
  rw [he] at hi
  obtain ⟨hb, i, hj, rfl⟩ := indexOf_shifted.mp hi
  refine ⟨rfl, ?_, hpre.elementType_eq, ?_, ?_, indexes_of_ofEntries rfl hj, ?_⟩
  · rw [hpre.dims_eq, hs.dims_eq]
    rfl
  · rw [hpre.row_zero, hs.dims_eq]
    simp [cellCount]
  · intro k _
    exact hpre.row_succ hs.dims_eq k
  · intro e hm
    rw [Migration.toNat_shift (hb e hm)]
    exact hpre.row_succ hs.dims_eq _

theorem assemble_kept_iff (hs : stored.Storable type rows cols)
    (hn : Migration.needsRetrofit header.version header.zeroReserved = false)
    (he : header.entries = some entries) :
    (∃ p, (assemble header stored).result = .ok p) ↔ 1 ≤ rows ∧ Assigned 1 rows entries := by
  constructor
  · rintro ⟨p, hp⟩
    obtain ⟨h1, index, hi, -⟩ := (assemble_kept hs.dims_eq hn).mp hp
    rw [he] at hi
    obtain ⟨i, hi, -⟩ := indexOf_kept.mp hi
    obtain ⟨-, ha, -⟩ := Index.ofEntries_eq_ok.mp hi
    exact ⟨h1, ha⟩
  · rintro ⟨h1, ha⟩
    have hi := Index.ofEntries_eq_ok.mpr ⟨h1, ha, rfl⟩
    have hx := indexOf_kept.mpr ⟨_, hi, rfl⟩
    rw [← he] at hx
    exact ⟨_, (assemble_kept hs.dims_eq hn).mpr ⟨h1, _, hx, rfl⟩⟩

theorem kept_of_assemble {p : Persisted α} (hs : stored.Storable type rows cols)
    (hn : Migration.needsRetrofit header.version header.zeroReserved = false)
    (he : header.entries = some entries) (hp : (assemble header stored).result = .ok p) :
    p.Kept entries stored rows := by
  obtain ⟨h1, index, hi, rfl⟩ := (assemble_kept hs.dims_eq hn).mp hp
  rw [he] at hi
  obtain ⟨i, hj, rfl⟩ := indexOf_kept.mp hi
  exact ⟨rfl, rfl, indexes_of_ofEntries rfl hj⟩

end Assemble

/-- A file of the third version without a reserved row keeps every item on its
own row; one with a reserved row, and every file of the fourth version, comes back
unchanged. Where there is no block for the rows and the row in front of them, the program
does not get as far as an answer. -/
theorem read_of_entries (source : Source) :
    (Header.FlagByte source 0 →
      ReadAs (α := α) source (fun entries stored rows =>
        Assigned 0 rows entries ∧ (∀ e ∈ entries, e.2 < maxSlot) ∧ HasRoom stored rows) Moved ∧
      ∀ (entries : List (α × Slot)) stored rows rest, Stores source entries stored rows rest →
        ¬ HasRoom stored rows → (read (α := α) source).result = .error .outOfMemory) ∧
    ((∃ flag, flag ≠ 0 ∧ Header.FlagByte source flag) ∨ source.bytes.head? = some 4 →
      ReadAs (α := α) source (fun entries _ rows => 1 ≤ rows ∧ Assigned 1 rows entries) Kept) := by
  refine ⟨fun hf => ⟨?_, ?_⟩, ?_⟩
  · refine readAs_of_assemble fun hh => ?_
    obtain ⟨hv, hn⟩ := layout_of_flag hh hf
    obtain ⟨entries, he⟩ := entries_of_holds hh hv
    obtain ⟨type, rows, cols, hs⟩ := hh.storable
    exact ⟨entries, type, rows, cols, he, hs, assemble_moved_iff hs hn he,
      fun p => moved_of_assemble hs hn he⟩
  · rintro entries stored rows rest ⟨header, cols, hh, -, hd⟩ hroom
    obtain ⟨-, hn⟩ := layout_of_flag hh hf
    obtain ⟨type, rows', cols', hs⟩ := hh.storable
    rw [hs.dims_eq] at hd
    cases hd
    rw [hasRoom_iff hs] at hroom
    exact Outgrowing.result_read ⟨⟨rest, hh⟩, hs, hn, Nat.not_lt.mp hroom⟩
  · intro hf
    refine readAs_of_assemble fun {header stored rest} hh => ?_
    have hlayout : 3 ≤ header.version ∧
        Migration.needsRetrofit header.version header.zeroReserved = false := by
      rcases hf with ⟨flag, h0, hf⟩ | h4
      · obtain ⟨hv, hn⟩ := layout_of_flag hh hf
        exact ⟨hv, by rw [hn, beq_eq_false_iff_ne.mpr h0]⟩
      · exact layout_of_current hh h4
    obtain ⟨hv, hn⟩ := hlayout
    obtain ⟨entries, he⟩ := entries_of_holds hh hv
    obtain ⟨type, rows, cols, hs⟩ := hh.storable
    exact ⟨entries, type, rows, cols, he, hs, assemble_kept_iff hs hn he,
      fun p => kept_of_assemble hs hn he⟩

/-- One row of two cells. -/
def oneRow : Tensor := ⟨.storable .uint8, [1, 2], [5, 6], true, rfl⟩

def oneRowBytes : List UInt8 :=
  [0, 0x50, 1, 0, 1, 109, 0, 5, 117, 105, 110, 116, 56,
    0, 0, 0, 2, 0, 0, 0, 0, 0, 0, 0, 1, 0, 0, 0, 0, 0, 0, 0, 2, 0, 0, 0, 0,
    0, 0, 0, 0, 0, 0, 0, 2, 5, 6]

/-- A file of the third version with item 7 in slot 0. -/
def oneItem (flag : UInt8) : Source where
  bytes := [3, 0, 0, 0, 0, flag, 1, 0, 5, 117, 105, 110, 116, 56, 0, 0, 0, 1,
    0, 0, 0, 4, 0, 0, 0, 7, 0, 0, 0, 0] ++ oneRowBytes

theorem stores_oneItem (flag : Bool) :
    Stores (oneItem (if flag then 1 else 0)) [((7 : UInt32), 0)] oneRow 1 ⟨[], .endOfData⟩ := by
  refine ⟨⟨3, some [], some flag, some true, some .uint8, some [(7, 0)]⟩, 2,
    ⟨⟨oneRowBytes, .endOfData⟩, "m", ?_, ?_⟩, rfl, rfl⟩
  · cases flag <;> cbv
  · cbv

/-- Slot 0 is a slot like any other before the row of zeros is there, and none after. -/
theorem read_oneItem :
    (∃ p : Persisted UInt32, (read (oneItem 0)).result = .ok (p, ⟨[], .endOfData⟩) ∧
      p.Moved [(7, 0)] oneRow 1) ∧
    ¬ ∃ p : Persisted UInt32, (read (oneItem 1)).result = .ok (p, ⟨[], .endOfData⟩) := by
  have h0 : Header.FlagByte (oneItem 0) 0 := ⟨_, [], _, rfl, rfl⟩
  have h1 : Header.FlagByte (oneItem 1) 1 := ⟨_, [], _, rfl, rfl⟩
  obtain ⟨⟨hread, hout⟩, -⟩ := (read_of_entries (α := UInt32) (oneItem 0)).1 h0
  obtain ⟨hread', -⟩ := (read_of_entries (α := UInt32) (oneItem 1)).2 (.inl ⟨1, by decide, h1⟩)
  have ha : Assigned 0 1 [((7 : UInt32), (0 : Slot))] := ⟨by simp, by simp, by simp⟩
  have hb : ∀ e ∈ [((7 : UInt32), (0 : Slot))], e.2 < maxSlot := by simp [maxSlot]
  have hroom : HasRoom oneRow 1 := by
    unfold HasRoom
    decide
  constructor
  · obtain ⟨p, hp⟩ := (hread _).mpr ⟨_, _, _, stores_oneItem false, ha, hb, hroom⟩
    exact ⟨p, hp, (hout _ _ _ _ _ _ (stores_oneItem false) hp).2⟩
  · intro h
    obtain ⟨entries, stored, rows, ⟨header, cols, hh, he, hd⟩, -, ha⟩ := (hread' _).mp h
    obtain ⟨header', cols', hh', he', hd'⟩ := stores_oneItem true
    obtain ⟨rfl, rfl, -⟩ := hh.unique hh'
    rw [he] at he'
    rw [hd] at hd'
    cases he'
    cases hd'
    exact absurd (ha.eq_nil (Nat.le_refl 1)) (by simp)

/-- The matrix of 2^62 columns and no rows in a file of the third version, without entries and
without a reserved row. -/
def wideEmpty : Source where
  bytes := [3, 0, 0, 0, 0, 0, 1, 0, 7, 102, 108, 111, 97, 116, 51, 50, 0, 0, 0, 0] ++
    wideFile.bytes.drop 5

/-- The file parses and its slots fit its rows, since there are none of either; yet it is not
read. -/
theorem read_wideEmpty : Header.FlagByte wideEmpty 0 ∧
    Stores (α := UInt32) wideEmpty [] wideMatrix.tensor 0 ⟨[], .endOfData⟩ ∧
    Assigned 0 0 ([] : List (UInt32 × Slot)) ∧
    (read (α := UInt32) wideEmpty).result = .error .outOfMemory := by
  have hflag : Header.FlagByte wideEmpty 0 := ⟨_, [], _, rfl, rfl⟩
  have hs : Shape.AllStorable [] := ⟨by decide, by simp⟩
  have hholds := holds_wideMatrix (α := UInt32)
    (.three [] hs 0 ⟨1, wideMatrix.typeName, [], by decide⟩)
  have hbytes : (Layout.Head.three [] hs 0 ⟨1, wideMatrix.typeName, [], by decide⟩ :
      Layout.Head UInt32).bytes ++ wideMatrix.bytes = wideEmpty.bytes := by rfl
  rw [hbytes] at hholds
  have hstores : Stores (α := UInt32) wideEmpty [] wideMatrix.tensor 0 ⟨[], .endOfData⟩ :=
    ⟨_, 2 ^ 62, hholds, rfl, rfl⟩
  have houtgrowing : Outgrowing (α := UInt32) wideEmpty _ wideMatrix.tensor .float32 0 (2 ^ 62) :=
    ⟨⟨_, hholds⟩, ⟨rfl, rfl⟩, rfl, by decide⟩
  exact ⟨hflag, hstores, .nil, houtgrowing.result_read⟩

end VectorTable.Persisted
