import VectorTable.Proofs.Persisted

/-! What can go wrong with bytes. On a device that does not fail, a reader of the format fails
only for what the bytes say, and a header and a matrix that were read are put together without
any fault but one of the data: the checks made while reading leave the operations behind them no
reason to fail. -/
namespace VectorTable

/-- The errors that bytes are to blame for. -/
inductive Error.Decoding : Error → Prop
  | malformed (flaw : Flaw) : Decoding (.malformed flaw)
  | itemCodec (fault : ItemFault) : Decoding (.itemCodec fault)

open Error

/-- On a device that does not fail, a reader fails only for what it reads, and leaves a device
that does not fail. -/
structure Reader.Decodes {α : Type} (r : Reader α) : Prop where
  error : ∀ {bytes e}, r ⟨bytes, .endOfData⟩ = .error e → Decoding e
  ending : ∀ {bytes a rest}, r ⟨bytes, .endOfData⟩ = .ok (a, rest) → rest.ending = .endOfData

namespace Reader.Decodes

variable {α β : Type}

theorem pure (a : α) : Decodes (Pure.pure a) where
  error h := by cases h
  ending h := by
    obtain ⟨-, rfl⟩ := pure_eq_ok.mp h
    rfl

theorem fail (flaw : Flaw) : Decodes (Reader.fail (.malformed flaw) : Reader α) where
  error h := by
    cases h
    exact .malformed flaw
  ending h := absurd h fail_ne_ok

theorem ofExcept {x : Except Error α} (hx : ∀ e, x = .error e → Decoding e) :
    Decodes (Reader.ofExcept x) := by
  cases x with
  | error e =>
    constructor
    · intro _ _ h
      cases h
      exact hx e rfl
    · intro _ _ _ h
      cases h
  | ok a => exact pure a

theorem bind {r : Reader α} {f : α → Reader β} (hr : Decodes r) (hf : ∀ a, Decodes (f a)) :
    Decodes (r >>= f) where
  error {bytes e} h := by
    rcases bind_eq_error.mp h with he | ⟨a, ⟨rest, ending⟩, ha, hb⟩
    · exact hr.error he
    · obtain rfl : ending = .endOfData := hr.ending ha
      exact (hf a).error hb
  ending h := by
    obtain ⟨a, ⟨rest, ending⟩, ha, hb⟩ := bind_eq_ok.mp h
    obtain rfl : ending = .endOfData := hr.ending ha
    exact (hf a).ending hb

theorem times {r : Reader α} (hr : Decodes r) (n : Nat) : Decodes (Reader.times n r) := by
  induction n with
  | zero => exact pure []
  | succ n ih =>
    rw [times_succ]
    exact hr.bind fun a => ih.bind fun rest => pure (a :: rest)

theorem exactly (n : Nat) (what : String) : Decodes (Reader.exactly n what) where
  error h := by
    unfold Reader.exactly at h
    dsimp only at h
    split_ifs at h
    cases h
    exact .malformed _
  ending h := by
    obtain ⟨-, hs⟩ := exactly_eq_ok h
    exact (congrArg Source.ending hs).symm

theorem upTo (n : Nat) : Decodes (Reader.upTo n) where
  error h := by
    unfold Reader.upTo at h
    dsimp only at h
    split_ifs at h
  ending h := by
    obtain ⟨hs, -⟩ := upTo_eq_ok h
    exact (congrArg Source.ending hs).symm

end Reader.Decodes

open Reader

namespace Wire

variable (what : String)

theorem decodes_u8 : Decodes (readU8 what) := (Decodes.exactly 1 what).bind fun _ => .pure _

theorem decodes_bool : Decodes (readBool what) := (decodes_u8 what).bind fun _ => .pure _

theorem decodes_u16 : Decodes (readU16 what) := (Decodes.exactly 2 what).bind fun _ => .pure _

theorem decodes_i32 : Decodes (readI32 what) := (Decodes.exactly 4 what).bind fun _ => .pure _

theorem decodes_i64 : Decodes (readI64 what) := (Decodes.exactly 8 what).bind fun _ => .pure _

theorem decodes_len : Decodes (readLen what) := by
  refine (decodes_i32 what).bind fun n => ?_
  split
  · exact .fail _
  · exact .pure _

theorem decodes_bytes (len : Nat) : Decodes (readBytes len what) := by
  unfold readBytes
  split
  · exact .fail _
  · exact .exactly len what

theorem decodes_utf : Decodes (readUtf what) := by
  refine (decodes_u16 what).bind fun len => (decodes_bytes what _).bind fun bytes => ?_
  split
  · exact .pure _
  · exact .fail _

end Wire

namespace Shape

theorem decodes_read : Decodes read := by
  refine (Wire.decodes_len _).bind fun rank => ?_
  split
  · exact .fail _
  · refine ((Wire.decodes_i64 _).times rank).bind fun dims => ?_
    refine (Wire.decodes_len _).bind fun count => ?_
    split
    · exact .fail _
    · refine ((Wire.decodes_u16 _).times count).bind fun units => ?_
      split
      · exact .pure _
      · exact .fail _

theorem decodes_readAll : Decodes readAll := by
  refine (Wire.decodes_len _).bind fun count => ?_
  split
  · exact .fail _
  · exact decodes_read.times count

end Shape

theorem mapError_decoding {ε α : Type} {f : ε → Error} (hf : ∀ fault, Decoding (f fault))
    {x : Except ε α} {e : Error} (h : x.mapError f = .error e) : Decoding e := by
  obtain ⟨fault, -, rfl⟩ := except_mapError_eq_error.mp h
  exact hf fault

namespace Parameter

theorem decodes_marker : Decodes readMarker := by
  refine (Wire.decodes_u16 _).bind fun found => ?_
  split_ifs
  · exact .pure _
  · exact .fail _
  · exact .fail _

theorem decodes_version : Decodes readVersion := by
  refine (Wire.decodes_u8 _).bind fun found => ?_
  split
  · exact .pure _
  · exact .fail _

theorem decodes_dataType (what : String) : Decodes (readDataType what) :=
  (Wire.decodes_utf what).bind fun _ => .ofExcept fun _ => mapError_decoding .malformed

theorem decodes_data (type : DataType) (shape : Shape) : Decodes (readData type shape) := by
  unfold readData
  split
  · exact .fail _
  · split
    · exact .fail _
    · refine (Wire.decodes_i64 _).bind fun declared => ?_
      split
      · exact .fail _
      · refine (Decodes.upTo _).bind fun data => ?_
        split
        · exact .pure _
        · exact .fail _

theorem decodes_read : Decodes read :=
  decodes_marker.bind fun _ => decodes_version.bind fun _ =>
    (Wire.decodes_utf _).bind fun _ => (decodes_dataType _).bind fun _ =>
      Shape.decodes_read.bind fun _ => (decodes_data _ _).bind fun _ => .pure _

end Parameter

namespace Header

variable {α : Type} [Item α]

theorem decodes_entry : Decodes (readEntry : Reader (α × Slot)) := by
  refine (Wire.decodes_len _).bind fun len => (Wire.decodes_bytes _ len).bind fun bytes => ?_
  refine (Decodes.ofExcept fun _ => mapError_decoding .itemCodec).bind fun item => ?_
  refine (Wire.decodes_i32 _).bind fun raw => ?_
  split
  · exact .fail _
  · exact .pure _

theorem decodes_entries : Decodes (readEntries : Reader (List (α × Slot))) :=
  (Wire.decodes_len _).bind fun count => decodes_entry.times count

theorem decodes_body (version : UInt8) (shapes : List Shape) (zeroReserved : Option Bool) :
    Decodes (readBody version shapes zeroReserved : Reader (Header α)) :=
  (Wire.decodes_bool _).bind fun _ => (Parameter.decodes_dataType _).bind fun _ =>
    decodes_entries.bind fun _ => .pure _

theorem decodes_read : Decodes (read : Reader (Header α)) := by
  refine (Wire.decodes_u8 _).bind fun version => ?_
  split_ifs
  · exact Shape.decodes_readAll.bind fun shapes => decodes_body _ _ _
  · exact Shape.decodes_readAll.bind fun shapes =>
      (Wire.decodes_bool _).bind fun flag => decodes_body _ _ _
  · exact Shape.decodes_readAll.bind fun shapes => .pure _
  · exact .pure _
  · exact .fail _

end Header

namespace Migration

/-- There is no block of memory for a matrix in the current layout. -/
structure Outgrown (version : UInt8) (zeroReserved : Option Bool) (type : DataType)
    (rows cols : Nat) : Prop where
  retrofits : needsRetrofit version zeroReserved = true
  limit_le : blockLimit ≤ (rows + 1) * (cols * type.width)

/-- A matrix that was read is brought to the current layout, unless it has no place there. -/
theorem migrate_of_storable {stored : Tensor} {version : UInt8} {zeroReserved : Option Bool}
    {type : DataType} {rows cols : Nat} (hs : stored.Storable type rows cols)
    (h : ¬ Outgrown version zeroReserved type rows cols) :
    ∃ matrix retrofitted numItems, migrate version zeroReserved stored = .ok (matrix, retrofitted) ∧
      matrix.Storable type numItems cols := by
  cases hn : needsRetrofit version zeroReserved with
  | false => exact ⟨stored, false, rows, migrate_kept hn, hs⟩
  | true =>
    have hfits : grownBytes type rows cols < blockLimit := Nat.not_le.mp fun hl => h ⟨hn, hl⟩
    obtain ⟨t, ht, hp⟩ := prependZeroRow_of_fits hs.dims_eq hs.elementType_eq hfits
    refine ⟨t, true, rows + 1, (migrate_retrofitted hn).mpr ⟨ht, rfl⟩, ?_, hp.dims_eq⟩
    rw [hp.elementType_eq, hs.elementType_eq]

theorem shiftSlots_eq_error {α : Type} {entries : List (α × Slot)} {e : Error}
    (h : shiftSlots entries = .error e) : ∃ flaw, e = .malformed flaw := by
  induction entries with
  | nil => cases h
  | cons entry rest ih =>
    obtain ⟨item, slot⟩ := entry
    rw [shiftSlots] at h
    split_ifs at h
    · cases h
      exact ⟨_, rfl⟩
    · exact ih (except_map_eq_error.mp h)

end Migration

namespace Persisted

variable {α : Type} [DecidableEq α] [Item α]

theorem indexOf_eq_error {entries : Option (List (α × Slot))} {retrofitted : Bool} {numItems : Nat}
    {e : Error} (h : indexOf entries retrofitted numItems = .error e) :
    ∃ flaw, e = .malformed flaw := by
  cases entries with
  | none => cases h
  | some entries =>
    cases retrofitted with
    | false => exact Index.ofEntries_eq_error (except_map_eq_error.mp h)
    | true =>
      have h : (Migration.shiftSlots entries >>= fun moved =>
        some <$> Index.ofEntries moved numItems) = .error e := h
      rcases except_bind_eq_error.mp h with hm | ⟨moved, -, hi⟩
      · exact Migration.shiftSlots_eq_error hm
      · exact Index.ofEntries_eq_error (except_map_eq_error.mp hi)

section Assemble

variable {header : Header α} {stored : Tensor} {type : DataType} {rows cols : Nat}
  (hs : stored.Storable type rows cols)
include hs

/-- Where there is no block for an older matrix and its row of zeros, nothing more happens. -/
theorem assemble_outgrown
    (h : Migration.Outgrown header.version header.zeroReserved type rows cols) :
    assemble header stored = Run.fail .outOfMemory := by
  have hm : Migration.migrate header.version header.zeroReserved stored = .error .outOfMemory := by
    rw [Migration.migrate, if_pos h.retrofits,
      Migration.prependZeroRow_outgrown hs.dims_eq hs.elementType_eq h.limit_le]
    rfl
  unfold assemble
  rw [Tensor.rowsCols_eq_ok.mpr hs.dims_eq, hm]
  rfl

/-- Where there is one, a header and a matrix of storable cells do not go together, if they do
not, for a flaw of the data. -/
theorem assemble_eq_error {e : Error}
    (hfits : ¬ Migration.Outgrown header.version header.zeroReserved type rows cols)
    (h : (assemble header stored).result = .error e) : ∃ flaw, e = .malformed flaw := by
  obtain ⟨matrix, retrofitted, numItems, hm, hsm⟩ := Migration.migrate_of_storable hs hfits
  unfold assemble at h
  rw [Tensor.rowsCols_eq_ok.mpr hs.dims_eq, Run.bind_ok] at h
  dsimp only at h
  rw [hm, Run.bind_ok] at h
  dsimp only at h
  rw [Tensor.rowsCols_eq_ok.mpr hsm.dims_eq, Run.bind_ok] at h
  dsimp only at h
  by_cases h0 : numItems = 0
  · rw [if_pos h0] at h
    cases h
    exact ⟨_, rfl⟩
  · rw [if_neg h0, Run.result_telling] at h
    rcases Run.bind_eq_error.mp h with hi | ⟨_, -, h⟩
    · exact indexOf_eq_error hi
    · cases h

end Assemble

/-- A source of an old layout whose matrix has no place in memory with a row in front. -/
structure Outgrowing (source : Source) (header : Header α) (stored : Tensor) (type : DataType)
    (rows cols : Nat) : Prop where
  holds : ∃ rest, Holds source header stored rest
  storable : stored.Storable type rows cols
  outgrown : Migration.Outgrown header.version header.zeroReserved type rows cols

/-- Reading stops at such a matrix, whatever device it is read from. -/
theorem Outgrowing.result_read {source : Source} {header : Header α} {stored : Tensor}
    {type : DataType} {rows cols : Nat} (h : Outgrowing source header stored type rows cols) :
    (read (α := α) source).result = .error .outOfMemory := by
  obtain ⟨rest, after, name, hh, hp⟩ := h.holds
  rw [Persisted.result_read]
  refine Reader.bind_eq_error.mpr (.inr ⟨header, after, hh, ?_⟩)
  refine Reader.bind_eq_error.mpr (.inr ⟨(name, stored), rest, hp, ?_⟩)
  show Reader.ofExcept (assemble header stored).result rest = _
  rw [assemble_outgrown h.storable h.outgrown]
  rfl

/-- Whatever bytes are read, nothing but the bytes is to blame if it fails; or they hold an old
layout whose matrix has no place in memory. -/
theorem read_error_cases {bytes : List UInt8} {e : Error}
    (h : (read (α := α) ⟨bytes, .endOfData⟩).result = .error e) :
    Decoding e ∨ e = .outOfMemory ∧ ∃ (header : Header α) (stored : Tensor) (type : DataType)
      (rows cols : Nat), Outgrowing ⟨bytes, .endOfData⟩ header stored type rows cols := by
  have hread := h
  rw [Persisted.result_read] at h
  rcases Reader.bind_eq_error.mp h with hh | ⟨header, ⟨rest, ending⟩, hh, h⟩
  · exact .inl (Header.decodes_read.error hh)
  obtain rfl : ending = .endOfData := Header.decodes_read.ending hh
  rcases Reader.bind_eq_error.mp h with hp | ⟨⟨name, stored⟩, rest', hp, h⟩
  · exact .inl (Parameter.decodes_read.error hp)
  have hholds : Holds ⟨bytes, .endOfData⟩ header stored rest' := ⟨_, name, hh, hp⟩
  obtain ⟨type, rows, cols, hs⟩ := hholds.storable
  by_cases hfits : Migration.Outgrown header.version header.zeroReserved type rows cols
  · have houtgrowing : Outgrowing ⟨bytes, .endOfData⟩ header stored type rows cols :=
      ⟨⟨rest', hholds⟩, hs, hfits⟩
    rw [houtgrowing.result_read] at hread
    cases hread
    exact .inr ⟨rfl, header, stored, type, rows, cols, houtgrowing⟩
  cases ha : (assemble header stored).result with
  | error e' =>
    simp only [ha] at h
    cases h
    obtain ⟨flaw, rfl⟩ := assemble_eq_error hs hfits ha
    exact .inl (.malformed flaw)
  | ok p =>
    simp only [ha] at h
    cases h

/-- The bytes at which reading runs out of memory. -/
theorem read_eq_outOfMemory {bytes : List UInt8} :
    (read (α := α) ⟨bytes, .endOfData⟩).result = .error .outOfMemory ↔
      ∃ (header : Header α) (stored : Tensor) (type : DataType) (rows cols : Nat),
        Outgrowing ⟨bytes, .endOfData⟩ header stored type rows cols := by
  constructor
  · intro h
    rcases read_error_cases h with hd | ⟨-, houtgrowing⟩
    · cases hd
    · exact houtgrowing
  · rintro ⟨header, stored, type, rows, cols, h⟩
    exact h.result_read

/-- A matrix without rows and with 2^62 columns. -/
def wideMatrix : Layout.Matrix where
  name := ⟨"m", by decide⟩
  typeName := ⟨⟨"float32", by decide⟩, .float32, DataType.lowerAscii_name .float32⟩
  rows := 0
  cols := 2 ^ 62
  axes := ""
  data := []
  rows_lt := by decide
  cols_lt := by decide
  axes_le := Nat.zero_le _
  length_data := by simp
  length_lt := by decide

omit [DecidableEq α] in
/-- The matrix behind a header. -/
theorem holds_wideMatrix (head : Layout.Head α) :
    Holds ⟨head.bytes ++ wideMatrix.bytes, .endOfData⟩ head.header wideMatrix.tensor
      ⟨[], .endOfData⟩ := by
  have hparts := exact_parts.reads (head, wideMatrix) [] .endOfData
  rw [List.append_nil] at hparts
  obtain ⟨after, hheader, hmatrix⟩ := parts_eq_ok.mp hparts
  exact ⟨after, _, hheader, hmatrix⟩

/-- The matrix in a file of the second version, 52 bytes in all. -/
def wideFile : Source where
  bytes := [2, 0, 0, 0, 0, 0, 0x50, 1, 0, 1, 109, 0, 7, 102, 108, 111, 97, 116, 51, 50,
    0, 0, 0, 2, 0, 0, 0, 0, 0, 0, 0, 0, 0x40, 0, 0, 0, 0, 0, 0, 0, 0, 0, 0, 0,
    0, 0, 0, 0, 0, 0, 0, 0]

omit [DecidableEq α] in
theorem holds_wideFile : Holds wideFile ({ version := 2, inputShapes := some [] } : Header α)
    wideMatrix.tensor ⟨[], .endOfData⟩ := by
  have hs : Shape.AllStorable [] := ⟨by decide, by simp⟩
  have hholds := holds_wideMatrix (.two [] hs : Layout.Head α)
  have hbytes : (Layout.Head.two [] hs : Layout.Head α).bytes ++ wideMatrix.bytes =
    wideFile.bytes := by rfl
  rw [hbytes] at hholds
  exact hholds

omit [DecidableEq α] in
theorem outgrowing_wideFile : Outgrowing wideFile
    ({ version := 2, inputShapes := some [] } : Header α) wideMatrix.tensor .float32 0
    (2 ^ 62) :=
  ⟨⟨_, holds_wideFile⟩, ⟨rfl, rfl⟩, rfl, by decide⟩

end Persisted
end VectorTable
