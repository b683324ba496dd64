import VectorTable.Proofs.Persisted

/-! The limits of the two sides. A writer asks of every length only that it fits its
field; a reader takes at most 1024 shapes, a rank and a layout of at most 64 and items of
at most 16 MiB. Between the two lie images that are written without complaint into files
that no reader takes. -/
namespace VectorTable

/-- The reader finds a flaw in the bytes, whatever follows them. -/
def Refuses {α : Type} (r : Reader α) (bytes : List UInt8) : Prop :=
  ∀ rest ending, ∃ flaw, r ⟨bytes ++ rest, ending⟩ = .error (.malformed flaw)

namespace Refuses

variable {α β : Type} {r : Reader α} {front back bytes : List UInt8}

theorem fail (flaw : Flaw) (bytes : List UInt8) :
    Refuses (Reader.fail (.malformed flaw) : Reader α) bytes :=
  fun _ _ => ⟨flaw, rfl⟩

theorem append (h : Refuses r front) (back : List UInt8) : Refuses r (front ++ back) := by
  intro rest ending
  rw [List.append_assoc]
  exact h (back ++ rest) ending

theorem bind_left (h : Refuses r bytes) (f : α → Reader β) : Refuses (r >>= f) bytes := by
  intro rest ending
  obtain ⟨flaw, hflaw⟩ := h rest ending
  exact ⟨flaw, Reader.bind_eq_error.mpr (Or.inl hflaw)⟩

theorem bind {f : α → Reader β} {a : α} (hr : Reads r front a) (hf : Refuses (f a) back) :
    Refuses (r >>= f) (front ++ back) := by
  intro rest ending
  obtain ⟨flaw, hflaw⟩ := hf rest ending
  rw [List.append_assoc]
  exact ⟨flaw, Reader.bind_eq_error.mpr (Or.inr ⟨a, _, hr _ _, hflaw⟩)⟩

/-- One bad value among those that are read in turn. -/
theorem times {bytes : β → List UInt8} (value : β → α) {good : β → Prop} {l : List β}
    (hr : ∀ b ∈ l, good b → Reads r (bytes b) (value b))
    (hf : ∀ b ∈ l, ¬ good b → Refuses r (bytes b)) (h : ¬ ∀ b ∈ l, good b) :
    Refuses (Reader.times l.length r) (l.flatMap bytes) := by
  induction l with
  | nil => exact absurd (by simp) h
  | cons b l ih =>
    rw [List.length_cons, Reader.times_succ, List.flatMap_cons]
    by_cases hb : good b
    -- the first value is read, so the bad one is behind it
    · have hl : ¬ ∀ b ∈ l, good b := fun hl => h (List.forall_mem_cons.mpr ⟨hb, hl⟩)
      refine .bind (hr b (by simp) hb) (bind_left ?_ _)
      exact ih (fun c hc => hr c (by simp [hc])) (fun c hc => hf c (by simp [hc])) hl
    · exact ((hf b (by simp) hb).append _).bind_left _

end Refuses

namespace Shape

theorem refuses {s : Shape} (hf : s.Fits) (hs : ¬ s.Storable) : Refuses read (Layout.shape s) := by
  simp only [Layout.shape, List.append_assoc]
  unfold read
  refine .bind ((Wire.exact_len _).reads ⟨_, hf.1⟩) ?_
  dsimp only
  split_ifs with hr
  · exact .fail _ _
  · refine .bind (((Wire.exact_i64 _).times _).reads ⟨s.dims, rfl⟩) ?_
    refine .bind ((Wire.exact_len _).reads ⟨_, hf.2⟩) ?_
    dsimp only
    split_ifs with hl
    · exact .fail _ _
    · exact absurd ⟨Nat.not_lt.mp hr, Nat.not_lt.mp hl⟩ hs

theorem refuses_all {l : List Shape} (hl : l.length < 2 ^ 31) (hf : ∀ s ∈ l, s.Fits)
    (hs : ¬ AllStorable l) : Refuses readAll (Layout.shapes l) := by
  unfold readAll
  refine .bind ((Wire.exact_len _).reads ⟨_, hl⟩) ?_
  dsimp only
  split_ifs with hc
  · exact .fail _ _
  · refine .times id (fun s _ h => exact_read.reads ⟨s, h⟩) (fun s h => refuses (hf s h)) ?_
    exact fun h => hs ⟨Nat.not_lt.mp hc, h⟩

/-- What a reader takes of shapes. The length of a layout is that of its UTF-16 code. -/
def WithinLimits (l : List Shape) : Prop :=
  l.length ≤ 1024 ∧ ∀ s ∈ l, s.dims.length ≤ 64 ∧ (Utf16.encode s.layout).length ≤ 64

theorem withinLimits_iff {l : List Shape} : WithinLimits l ↔ AllStorable l :=
  and_congr_right' (forall₂_congr fun _ _ => ⟨fun h => ⟨h.1, h.2⟩, fun h => ⟨h.1, h.2⟩⟩)

/-- Shapes whose lengths fit their fields are written, and what was written is read back, up to
whatever follows it, if it is within the limits of a reader; if not, it is malformed. The other
way round, the bytes that are read for shapes are those that these shapes are written in. -/
theorem readAll_of_written :
    (∀ l : List Shape, l.length < 2 ^ 31 → (∀ s ∈ l, s.Fits) →
      ∃ bytes, (writeAll l).output = .ok bytes ∧ ∀ (rest : List UInt8) (ending : Ending),
        (readAll ⟨bytes ++ rest, ending⟩ = .ok (l, ⟨rest, ending⟩) ↔ WithinLimits l) ∧
        (¬ WithinLimits l → ∃ flaw, readAll ⟨bytes ++ rest, ending⟩ = .error (.malformed flaw))) ∧
    ∀ (bytes : List UInt8) (ending : Ending) (l : List Shape) (rest : Source),
      readAll ⟨bytes, ending⟩ = .ok (l, rest) →
        ∃ front, bytes = front ++ rest.bytes ∧ rest.ending = ending ∧
          (writeAll l).output = .ok front := by
  constructor
  · intro l hl hf
    refine ⟨Layout.shapes l, ((leaves_all l).writes ⟨hl, hf⟩).output, fun rest ending => ?_⟩
    rw [withinLimits_iff]
    by_cases hs : AllStorable l
    · exact ⟨iff_of_true (exact_readAll.reads ⟨l, hs⟩ rest ending) hs, absurd hs⟩
    · obtain ⟨flaw, hflaw⟩ := refuses_all hl hf hs rest ending
      rw [hflaw]
      exact ⟨iff_of_false nofun hs, fun _ => ⟨flaw, rfl⟩⟩
  · intro bytes ending l rest h
    obtain ⟨⟨l, hs⟩, hb, rfl⟩ := exact_readAll.layout h
    obtain ⟨rfl, rfl⟩ := Source.mk.inj hb
    exact ⟨Layout.shapes l, rfl, rfl, ((leaves_all l).writes hs.fits).output⟩

/-- A layout of 33 characters in 66 units. -/
def wideLayout : Shape := ⟨[-1, 2], String.ofList (List.replicate 33 '😀')⟩

theorem readAll_of_wideLayout : [wideLayout].length < 2 ^ 31 ∧ (∀ s ∈ [wideLayout], s.Fits) ∧
    ∃ bytes, (writeAll [wideLayout]).output = .ok bytes ∧
      ∃ flaw, readAll ⟨bytes ++ [7], .endOfData⟩ = .error (.malformed flaw) := by
  have hunits : (Utf16.encode wideLayout.layout).length = 66 := by
    rw [wideLayout, Utf16.encode, String.toList_ofList]
    rfl
  have hl : [wideLayout].length < 2 ^ 31 := Nat.one_lt_two_pow (by decide)
  have hf : ∀ s ∈ [wideLayout], s.Fits := by
    intro s hs
    rw [List.mem_singleton.mp hs]
    exact ⟨show 2 < 2 ^ 31 by decide, by rw [hunits]; decide⟩
  obtain ⟨bytes, hw, hr⟩ := readAll_of_written.1 [wideLayout] hl hf
  refine ⟨hl, hf, bytes, hw, (hr [7] .endOfData).2 fun h => ?_⟩
  have h64 := (h.2 wideLayout (by simp)).2
  omega

end Shape

namespace Header

variable {α : Type} [Item α]

theorem refuses_entry {e : α × Slot} (hl : (Item.encode e.1).length < 2 ^ 31)
    (hb : ¬ (Item.encode e.1).length ≤ Wire.maxBytes) :
    Refuses (readEntry : Reader (α × Slot)) (Layout.entry (Item.encode e.1) e.2) := by
  simp only [Layout.entry, List.append_assoc]
  unfold readEntry
  refine .bind ((Wire.exact_len _).reads ⟨_, hl⟩) (.bind_left ?_ _)
  rw [Wire.readBytes, if_pos (Nat.not_le.mp hb)]
  exact .fail _ _

end Header

namespace Image

variable {α : Type} [Item α]

/-- What a reader asks of the lengths in an image. -/
structure Readable (image : Image α) : Prop where
  shapes : Shape.AllStorable image.inputShapes
  items : ∀ e ∈ image.entries, (Item.encode e.1).length ≤ Wire.maxBytes

theorem refuses_entries [LawfulItem α] {image : Image α} (hf : image.Fits)
    (hs : SlotsFit image.entries)
    (hi : ¬ ∀ e ∈ image.entries, (Item.encode e.1).length ≤ Wire.maxBytes) :
    Refuses (Header.readEntries : Reader (List (α × Slot)))
      (Layout.count image.entries.length ++
        image.entries.flatMap fun e => Layout.entry (Item.encode e.1) e.2) := by
  unfold Header.readEntries
  refine .bind ((Wire.exact_len _).reads ⟨_, hf.count_lt⟩) ?_
  exact .times id (fun e he hb => Header.reads_entry hb (hs e he))
    (fun e he => Header.refuses_entry (hf.items e he)) hi

theorem refuses_header [LawfulItem α] {image : Image α} (type : DataType) (hf : image.Fits)
    (hs : SlotsFit image.entries) (hr : ¬ image.Readable) :
    Refuses (Header.read : Reader (Header α)) (image.layout type) := by
  simp only [layout, Layout.body, List.append_assoc, List.length_map, List.flatMap_map]
  unfold Header.read
  refine .bind ((Wire.exact_u8 _).reads 4) ?_
  rw [if_pos rfl]
  by_cases hshapes : Shape.AllStorable image.inputShapes
  · refine .bind (Shape.exact_readAll.reads ⟨_, hshapes⟩) ?_
    unfold Header.readBody
    refine .bind ((Wire.exact_bool _).reads _) ?_
    refine .bind ((Parameter.exact_dataType _).reads
      ⟨⟨_, image.dataType.length_name_lt⟩, image.dataType, image.dataType.lowerAscii_name⟩) ?_
    refine .bind_left ?_ _
    rw [← List.append_assoc]
    exact (refuses_entries hf hs fun hi => hr ⟨hshapes, hi⟩).append _
  · exact ((Shape.refuses_all hf.shapes_lt hf.shapes hshapes).append _).bind_left _

end Image

namespace Persisted

variable {α : Type} [DecidableEq α] [Item α]

theorem read_eq_error {source : Source} {e : Error}
    (h : (Header.read : Reader (Header α)) source = .error e) :
    (read source : Run Event Error (Persisted α × Source)).result = .error e := by
  rw [result_read]
  exact Reader.bind_eq_error.mpr (Or.inl h)

/-- What comes back of an image: its entries in ascending order of slot, its matrix row by
row. -/
def ofImage (image : Image α) (rows cols : Nat) : Persisted α :=
  ⟨currentVersion, some image.inputShapes, some image.sparseGrad, some image.dataType,
    some ⟨image.entries.mergeSort fun a b => a.2 ≤ b.2, rows⟩, image.matrix.rowMajor, rows, cols,
    false⟩

variable [LawfulItem α] {image : Image α} {type : DataType} {rows cols : Nat}

theorem read_layout (h : image.Storable) (hm : image.matrix.Storable type rows cols)
    (h1 : 1 ≤ rows) (hr : rows < 2 ^ 63) (hc : cols < 2 ^ 63)
    (hb : image.matrix.data.length < 2 ^ 63) (ha : Assigned 1 rows image.entries)
    (rest : List UInt8) (ending : Ending) :
    (read ⟨image.layout type ++ rest, ending⟩).result =
      .ok (ofImage image rows cols, ⟨rest, ending⟩) := by
  obtain ⟨-, hholds⟩ := holds_of_image h hm hr hc hb
  have hkept :
      Migration.needsRetrofit image.header.version image.header.zeroReserved = false := rfl
  have hindex := indexOf_kept.mpr ⟨_, Index.ofEntries_eq_ok.mpr ⟨h1, ha, rfl⟩, rfl⟩
  have hdims : image.matrix.rowMajor.dims = [rows, cols] := hm.dims_eq
  have hassemble := (assemble_kept hdims hkept).mpr ⟨h1, _, hindex, rfl⟩
  exact read_eq_ok.mpr ⟨_, _, hholds rest ending, hassemble⟩

/-- An image that was written is read back, to the last byte, if it keeps to the limits of
a reader, and its file is malformed if it does not. -/
theorem read_of_written {bytes : List UInt8} (hm : image.matrix.Storable type rows cols)
    (h1 : 1 ≤ rows) (hr : rows < 2 ^ 63) (hc : cols < 2 ^ 63)
    (hb : image.matrix.data.length < 2 ^ 63) (ha : Assigned 1 rows image.entries)
    (hs : SlotsFit image.entries) (hw : image.write.output = .ok bytes) :
    (image.Readable → (read ⟨bytes, .endOfData⟩).result =
      .ok (ofImage image rows cols, ⟨[], .endOfData⟩)) ∧
    (¬ image.Readable → ∃ flaw,
      (read ⟨bytes, .endOfData⟩ : Run Event Error (Persisted α × Source)).result =
        .error (.malformed flaw)) := by
  obtain ⟨hf, rfl⟩ := (Image.leaves hm.elementType_eq bytes).mp (Writes.of_output hw)
  constructor
  · rintro ⟨hshapes, hitems⟩
    have hread := read_layout ⟨hshapes, hitems, hs, hf.count_lt⟩ hm h1 hr hc hb ha [] .endOfData
    rwa [List.append_nil] at hread
  · intro hn
    obtain ⟨flaw, hflaw⟩ := Image.refuses_header type hf hs hn [] .endOfData
    rw [List.append_nil] at hflaw
    exact ⟨flaw, read_eq_error hflaw⟩

/-- An image of one row with an input shape of a given rank. -/
def ofRank (rank : Nat) : Image UInt32 :=
  ⟨[⟨List.replicate rank 0, ""⟩], true, .uint8, [], ⟨.storable .uint8, [1, 1], [7], true, rfl⟩⟩

theorem write_ofRank {rank : Nat} (h : rank < 2 ^ 31) :
    (ofRank rank).write.output = .ok ((ofRank rank).layout .uint8) := by
  have hmatrix := Shape.fits_pair 1 1
  have hfits : (ofRank rank).Fits := by
    refine ⟨Nat.one_lt_two_pow (by decide), ?_, Nat.two_pow_pos 31, by simp [ofRank], hmatrix⟩
    intro s hs
    rw [List.mem_singleton.mp hs]
    exact ⟨by rwa [List.length_replicate], hmatrix.2⟩
  exact ((Image.leaves rfl).writes hfits).output

theorem matrix_ofRank (rank : Nat) : (ofRank rank).matrix.Storable .uint8 1 1 := ⟨rfl, rfl⟩

theorem slotsFit_ofRank (rank : Nat) : SlotsFit (ofRank rank).entries := by simp [SlotsFit, ofRank]

/-- One dimension more than a reader takes. -/
theorem read_rank_above : (ofRank 65).matrix.Storable .uint8 1 1 ∧ Assigned 1 1 (ofRank 65).entries ∧
    SlotsFit (ofRank 65).entries ∧ ∃ bytes, (ofRank 65).write.output = .ok bytes ∧
      (read ⟨bytes, .endOfData⟩ : Run Event Error (Persisted UInt32 × Source)).result =
        .error (.malformed (.rank 65 64)) := by
  obtain ⟨tail, htail⟩ : ∃ tail, (ofRank 65).layout .uint8 = [4, 0, 0, 0, 1, 0, 0, 0, 65] ++ tail :=
    ⟨_, rfl⟩
  refine ⟨matrix_ofRank 65, .nil, slotsFit_ofRank 65, _, write_ofRank (by decide), read_eq_error ?_⟩
  rw [htail]
  rfl

/-- As many dimensions as a reader takes. -/
theorem read_rank_at_limit :
    (ofRank 64).write.output = .ok ((ofRank 64).layout .uint8) ∧
      (read ⟨(ofRank 64).layout .uint8, .endOfData⟩).result =
        .ok (ofImage (ofRank 64) 1 1, ⟨[], .endOfData⟩) := by
  have hw : (ofRank 64).write.output = .ok _ := write_ofRank (by decide)
  have hreadable : (ofRank 64).Readable := by
    refine ⟨⟨by decide, ?_⟩, by simp [ofRank]⟩
    intro s hs
    rw [List.mem_singleton.mp hs]
    exact ⟨by rw [List.length_replicate]; decide, by decide⟩
  have hread := read_of_written (matrix_ofRank 64) (by decide) (by decide) (by decide) (by decide)
    .nil (slotsFit_ofRank 64) hw
  exact ⟨hw, hread.1 hreadable⟩

end Persisted
end VectorTable
