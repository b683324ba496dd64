import VectorTable.Proofs.Delimited
import VectorTable.Proofs.Layout

/-! The readers accept exactly the layouts of the format. `Exact r bytes value` says so
of a reader: it takes the bytes of every layout for what the layout says, and takes
nothing else. It goes through repetitions, and field by field to a file as a whole. -/
namespace VectorTable

variable {α β : Type}

structure Exact (r : Reader α) {L : Type} (bytes : L → List UInt8) (value : L → α) : Prop where
  reads : ∀ l, Reads r (bytes l) (value l)
  layout : ∀ {source rest : Source} {a : α}, r source = .ok (a, rest) →
    ∃ l, source = rest.behind (bytes l) ∧ a = value l

namespace Exact

variable {L : Type} {r : Reader α} {bytes : L → List UInt8} {value : L → α}

/-- The reader takes the first `n` bytes exactly if they are a layout. -/
theorem eq_ok_iff (h : Exact r bytes value) {data : List UInt8} {ending : Ending} {rest : Source}
    {a : α} : r ⟨data, ending⟩ = .ok (a, rest) ↔
      ∃ n ≤ data.length, rest = ⟨data.drop n, ending⟩ ∧
        ∃ l, data.take n = bytes l ∧ a = value l := by
  constructor
  · intro ha
    obtain ⟨l, hs, rfl⟩ := h.layout ha
    obtain ⟨rfl, rfl⟩ := Source.mk.inj hs
    refine ⟨(bytes l).length, by simp, ?_, l, ?_, rfl⟩
    · rw [List.drop_left]
    · rw [List.take_left]
  · rintro ⟨n, -, rfl, l, hl, rfl⟩
    have hr := h.reads l (data.drop n) ending
    rwa [← hl, List.take_append_drop] at hr

/-- A sequence that succeeds begins with a layout of its first step. -/
theorem bind_layout (h : Exact r bytes value) {f : α → Reader β} {source rest : Source} {b : β}
    (hb : (r >>= f) source = .ok (b, rest)) :
    ∃ l middle, source = middle.behind (bytes l) ∧ f (value l) middle = .ok (b, rest) := by
  obtain ⟨a, middle, ha, hf⟩ := Reader.bind_eq_ok.mp hb
  obtain ⟨l, hs, rfl⟩ := h.layout ha
  exact ⟨l, middle, hs, hf⟩

theorem times (h : Exact r bytes value) (n : Nat) : Exact (Reader.times n r)
    (fun ls : { ls : List L // ls.length = n } => ls.1.flatMap bytes)
    fun ls => ls.1.map value where
  reads := by
    rintro ⟨ls, rfl⟩
    induction ls with
    | nil => exact Reads.pure []
    | cons l ls ih =>
      show Reads (Reader.times (ls.length + 1) r) (bytes l ++ ls.flatMap bytes) _
      rw [Reader.times_succ, ← List.append_nil (ls.flatMap bytes)]
      exact (h.reads l).bind (ih.bind (Reads.pure _))
  layout {source rest as} ht := by
    induction n generalizing source as with
    | zero =>
      obtain ⟨rfl, rfl⟩ := Reader.pure_eq_ok.mp ht
      exact ⟨⟨[], rfl⟩, rfl, rfl⟩
    | succ n ih =>
      rw [Reader.times_succ] at ht
      obtain ⟨l, s1, rfl, h1⟩ := h.bind_layout ht
      obtain ⟨more, s2, h2, h3⟩ := Reader.bind_eq_ok.mp h1
      obtain ⟨rfl, rfl⟩ := Reader.pure_eq_ok.mp h3
      obtain ⟨⟨ls, rfl⟩, rfl, rfl⟩ := ih h2
      exact ⟨⟨l :: ls, rfl⟩, by simp, rfl⟩

end Exact

namespace Wire

variable (what : String)

theorem word_eq_ok {width : Nat} {ofNat : Nat → α} (toNat : α → Nat) {source rest : Source} {a : α}
    (hn : ∀ n < 256 ^ width, toNat (ofNat n) = n)
    (h : (Reader.exactly width what >>= fun b => pure (ofNat (ofBigEndian b))) source =
      .ok (a, rest)) : source = rest.behind (bigEndian width (toNat a)) := by
  obtain ⟨bytes, s, hb, h1⟩ := Reader.bind_eq_ok.mp h
  obtain ⟨rfl, rfl⟩ := Reader.pure_eq_ok.mp h1
  obtain ⟨hl, rfl⟩ := Reader.exactly_eq_ok hb
  rw [hn _ (hl ▸ ofBigEndian_lt bytes), ← hl, bigEndian_ofBigEndian]

theorem exact_u8 : Exact (readU8 what) (fun v => [v]) fun v => v where
  reads v := reads_u8 v what
  layout {_ _ v} h := by
    have hs := word_eq_ok what UInt8.toNat (fun _ hn => UInt8.toNat_ofNat_of_lt' hn) h
    have hv : bigEndian 1 v.toNat = [v] := by simp [bigEndian, littleEndian]
    exact ⟨v, hv ▸ hs, rfl⟩

theorem exact_bool : Exact (readBool what) (fun v => [v]) (· != 0) where
  reads v := reads_bool v what
  layout h := by
    obtain ⟨v, s, rfl, h1⟩ := (exact_u8 what).bind_layout h
    obtain ⟨rfl, rfl⟩ := Reader.pure_eq_ok.mp h1
    exact ⟨v, rfl, rfl⟩

theorem exact_u16 : Exact (readU16 what) Layout.uint16 fun v => v where
  reads v := (carries_u16 v what).reads (.put _)
  layout {_ _ v} h :=
    ⟨v, word_eq_ok what UInt16.toNat (fun _ hn => UInt16.toNat_ofNat_of_lt' hn) h, rfl⟩

theorem exact_i32 : Exact (readI32 what) Layout.int32 fun v => v where
  reads v := (carries_i32 v what).reads (.put _)
  layout {_ _ v} h :=
    ⟨v, word_eq_ok what (fun v : Int32 => v.toUInt32.toNat)
      (fun _ hn => UInt32.toNat_ofNat_of_lt' hn) h, rfl⟩

theorem exact_i64 : Exact (readI64 what) Layout.int64 fun v => v where
  reads v := (carries_i64 v what).reads (.put _)
  layout {_ _ v} h :=
    ⟨v, word_eq_ok what (fun v : Int64 => v.toUInt64.toNat)
      (fun _ hn => UInt64.toNat_ofNat_of_lt' hn) h, rfl⟩

theorem exact_len :
    Exact (readLen what) (fun n : { n : Nat // n < 2 ^ 31 } => Layout.count n) (·.1) where
  reads n := (carries_len n.2 what what).reads ((leaves_len n what).writes n.2)
  layout h := by
    obtain ⟨raw, s, rfl, h1⟩ := (exact_i32 what).bind_layout h
    split_ifs at h1 with h0
    · exact absurd h1 Reader.fail_ne_ok
    · obtain ⟨rfl, rfl⟩ := Reader.pure_eq_ok.mp h1
      refine ⟨⟨raw.toNatClampNeg, raw.toNatClampNeg_lt⟩, ?_, rfl⟩
      rw [Layout.count, Int32.ofNat_toNatClampNeg raw (Int32.not_lt.mp h0)]

theorem exact_bytes (len : Nat) : Exact (readBytes len what)
    (fun b : { b : List UInt8 // b.length = len ∧ len ≤ maxBytes } => b.1) (·.1) where
  reads := by
    rintro ⟨b, rfl, hb⟩
    exact (carries_bytes hb what).reads (.put b)
  layout h := by
    unfold readBytes at h
    split_ifs at h with hl
    · exact absurd h Reader.fail_ne_ok
    · obtain ⟨hb, rfl⟩ := Reader.exactly_eq_ok h
      exact ⟨⟨_, hb, Nat.not_lt.mp hl⟩, rfl, rfl⟩

theorem exact_utf :
    Exact (readUtf what) (fun t : Layout.Text => Layout.text t.string) Layout.Text.string where
  reads t := (carries_utf t.fits what).reads ((leaves_utf t.string).writes t.fits)
  layout h := by
    obtain ⟨len, s1, rfl, h1⟩ := (exact_u16 what).bind_layout h
    obtain ⟨⟨bytes, hl, _⟩, s2, rfl, h2⟩ := (exact_bytes what _).bind_layout h1
    cases hd : Utf8.decode bytes with
    | error e =>
      simp only [hd] at h2
      exact absurd h2 Reader.fail_ne_ok
    | ok string =>
      simp only [hd] at h2
      obtain ⟨rfl, rfl⟩ := Reader.pure_eq_ok.mp h2
      have he : Utf8.encode string = bytes := Utf8.encode_of_decode hd
      refine ⟨⟨string, by rw [he, hl]; exact len.toNat_lt⟩, ?_, rfl⟩
      simp only [Layout.text, he, hl, UInt16.ofNat_toNat, Source.behind_append]

end Wire

namespace Shape

theorem exact_read : Exact read (fun s : { s : Shape // s.Storable } => Layout.shape s) (·.1) where
  reads s := (carries s.2).reads (s.1.leaves.writes s.2.fits)
  layout h := by
    obtain ⟨rank, s1, rfl, h1⟩ := (Wire.exact_len _).bind_layout h
    split_ifs at h1 with hr
    · exact absurd h1 Reader.fail_ne_ok
    · obtain ⟨⟨dims, hdims⟩, s2, rfl, h2⟩ := ((Wire.exact_i64 _).times _).bind_layout h1
      obtain ⟨count, s3, rfl, h3⟩ := (Wire.exact_len _).bind_layout h2
      split_ifs at h3 with hc
      · exact absurd h3 Reader.fail_ne_ok
      · obtain ⟨⟨units, hunits⟩, s4, rfl, h4⟩ := ((Wire.exact_u16 _).times _).bind_layout h3
        cases hd : Utf16.decode units with
        | none =>
          simp only [List.map_id', hd] at h4
          exact absurd h4 Reader.fail_ne_ok
        | some layout =>
          simp only [List.map_id', hd] at h4
          obtain ⟨rfl, rfl⟩ := Reader.pure_eq_ok.mp h4
          have he := Utf16.encode_of_decode hd
          refine ⟨⟨⟨dims, layout⟩, ?_, ?_⟩, ?_, rfl⟩
          · exact hdims ▸ Nat.not_lt.mp hr
          · exact he ▸ hunits ▸ Nat.not_lt.mp hc
          · simp only [Layout.shape, he, hdims, hunits, Source.behind_append]

theorem exact_readAll :
    Exact readAll (fun l : { l : List Shape // AllStorable l } => Layout.shapes l) (·.1) where
  reads l := (carries_all l.2).reads ((leaves_all l.1).writes l.2.fits)
  layout h := by
    obtain ⟨count, s1, rfl, h1⟩ := (Wire.exact_len _).bind_layout h
    split_ifs at h1 with hc
    · exact absurd h1 Reader.fail_ne_ok
    · obtain ⟨⟨l, hl⟩, rfl, rfl⟩ := (exact_read.times _).layout h1
      refine ⟨⟨l.map (·.1), ?_, ?_⟩, ?_, rfl⟩
      · rw [List.length_map, hl]
        exact Nat.not_lt.mp hc
      · simp only [List.mem_map, forall_exists_index, and_imp]
        rintro _ s - rfl
        exact s.2
      · simp only [Layout.shapes, List.length_map, hl, List.flatMap_map, Source.behind_append]

end Shape

namespace Parameter

theorem exact_dataType (what : String) : Exact (readDataType what)
    (fun t : Layout.TypeName => Layout.text t.string) Layout.TypeName.type where
  reads t := by
    have hp : (DataType.parse t.string).mapError Error.malformed = .ok t.type := by
      rw [DataType.parse_eq_ok.mpr t.names]
      rfl
    rw [← List.append_nil (Layout.text t.string)]
    refine ((Wire.exact_utf what).reads t.toText).bind ?_
    rw [hp]
    exact Reads.pure t.type
  layout h := by
    obtain ⟨t, s, rfl, h1⟩ := (Wire.exact_utf what).bind_layout h
    cases hp : DataType.parse t.string with
    | error e =>
      rw [hp] at h1
      cases h1
    | ok type =>
      rw [hp] at h1
      obtain ⟨rfl, rfl⟩ := Reader.pure_eq_ok.mp h1
      exact ⟨⟨t, type, DataType.parse_eq_ok.mp hp⟩, rfl, rfl⟩

theorem exact_marker : Exact readMarker (fun _ : Unit => Layout.uint16 marker) id where
  reads _ := carries_marker.reads (.put _)
  layout h := by
    obtain ⟨found, s, rfl, h1⟩ := (Wire.exact_u16 _).bind_layout h
    split_ifs at h1 with h0
    · obtain ⟨-, rfl⟩ := Reader.pure_eq_ok.mp h1
      exact ⟨(), by rw [h0], rfl⟩
    · exact absurd h1 Reader.fail_ne_ok
    · exact absurd h1 Reader.fail_ne_ok

theorem exact_version : Exact readVersion (fun _ : Unit => [version]) id where
  reads _ := carries_version.reads (.put _)
  layout h := by
    obtain ⟨found, s, rfl, h1⟩ := (Wire.exact_u8 _).bind_layout h
    split_ifs at h1 with h0
    · obtain ⟨-, rfl⟩ := Reader.pure_eq_ok.mp h1
      exact ⟨(), by rw [h0], rfl⟩
    · exact absurd h1 Reader.fail_ne_ok

theorem int64_eq_ofNat {d : Int64} {n : Nat} (h : d.toInt = n) :
    n < 2 ^ 63 ∧ d = Int64.ofNat n := by
  have hd := d.toInt_lt
  have hn : n < 2 ^ 63 := by omega
  exact ⟨hn, Int64.toInt_inj.mp (by rw [Int64.toInt_ofNat_of_lt hn, h])⟩

theorem reads_data (m : Layout.Matrix) : Reads (readData m.typeName.type m.shape)
    (Layout.int64 (Int64.ofNat m.data.length) ++ m.data) m.tensor := by
  have hs : sides? m.shape = some (m.rows, m.cols) :=
    sides?_eq_some.mpr ⟨rfl, m.rows_lt, m.cols_lt⟩
  have hm : m.tensor.Storable m.typeName.type m.rows m.cols := ⟨rfl, rfl⟩
  exact (carries_data hm hs m.length_lt).reads ((Writes.put _).bind (.put _))

theorem data_eq_ok (name : Layout.Text) {typeName : Layout.TypeName} {shape : Shape}
    {source rest : Source} {matrix : Tensor} (hs : shape.Storable)
    (h : readData typeName.type shape source = .ok (matrix, rest)) :
    ∃ m : Layout.Matrix, m.name = name ∧ m.typeName = typeName ∧ m.shape = shape ∧
      source = rest.behind (Layout.int64 (Int64.ofNat m.data.length) ++ m.data) ∧
      matrix = m.tensor := by
  obtain ⟨rows, cols, _, middle, hsides, hdeclared, hlen, hup, ⟨he, hd⟩, hc⟩ := readData_eq_ok h
  obtain ⟨declared, rfl, rfl⟩ := (Wire.exact_i64 _).layout hdeclared
  obtain ⟨rfl, -⟩ := Reader.upTo_eq_ok hup
  obtain ⟨hdims, hrows, hcols⟩ := sides?_eq_some.mp hsides
  obtain ⟨hlt, hdec⟩ := int64_eq_ofNat hlen
  -- the sides and the length determine the tensor, which is now put in the words of a layout
  clear h hdeclared hlen hup hsides
  obtain ⟨dims, axes⟩ := shape
  obtain ⟨elementType, sides, data, contiguous, hdata⟩ := matrix
  dsimp only at he hd hc hdims hlt hdec
  subst he hd hc hdims
  rw [cellCount_pair] at hdata
  refine ⟨⟨name, typeName, rows, cols, axes, data, hrows, hcols, hs.layout_le, hdata, hlt⟩,
    rfl, rfl, rfl, ?_, rfl⟩
  rw [Source.behind_append, ← hdec]

theorem storable_shape (m : Layout.Matrix) : m.shape.Storable :=
  ⟨(by decide : 2 ≤ Shape.maxRank), m.axes_le⟩

/-- The fields of a parameter, in order. -/
theorem bytes_matrix (m : Layout.Matrix) : m.bytes = Layout.uint16 marker ++ ([version] ++
    (Layout.text m.name.string ++ (Layout.text m.typeName.string ++ (Layout.shape m.shape ++
      (Layout.int64 (Int64.ofNat m.data.length) ++ m.data))))) := by
  simp only [Layout.Matrix.bytes, Layout.parameter, List.append_assoc]
  rfl

theorem exact_read : Exact read Layout.Matrix.bytes fun m => (m.name.string, m.tensor) where
  reads m := by
    rw [bytes_matrix, ← List.append_nil (Layout.int64 _ ++ m.data)]
    unfold read
    refine (exact_marker.reads ()).bind ((exact_version.reads ()).bind ?_)
    refine ((Wire.exact_utf _).reads m.name).bind (((exact_dataType _).reads m.typeName).bind ?_)
    refine (Shape.exact_read.reads ⟨m.shape, storable_shape m⟩).bind ?_
    exact (reads_data m).bind (Reads.pure _)
  layout h := by
    obtain ⟨-, s1, rfl, h1⟩ := exact_marker.bind_layout h
    obtain ⟨-, s2, rfl, h2⟩ := exact_version.bind_layout h1
    obtain ⟨name, s3, rfl, h3⟩ := (Wire.exact_utf _).bind_layout h2
    obtain ⟨typeName, s4, rfl, h4⟩ := (exact_dataType _).bind_layout h3
    obtain ⟨⟨shape, hs⟩, s5, rfl, h5⟩ := Shape.exact_read.bind_layout h4
    obtain ⟨matrix, s6, h6, h7⟩ := Reader.bind_eq_ok.mp h5
    obtain ⟨rfl, rfl⟩ := Reader.pure_eq_ok.mp h7
    obtain ⟨m, rfl, rfl, rfl, rfl, rfl⟩ := data_eq_ok name hs h6
    exact ⟨m, by rw [bytes_matrix]; simp only [Source.behind_append], rfl⟩

end Parameter

theorem toInt_toInt32 {slot : Slot} (h : slot ≤ maxSlot) : slot.toInt32.toInt = slot.toNat := by
  have hle : slot.toNat ≤ 0x7FFFFFFF := UInt32.le_iff_toNat_le.mp h
  have hs : slot.toInt32 = Int32.ofNat slot.toNat := by
    rw [← UInt32.toInt32_ofNat', UInt32.ofNat_toNat]
  rw [hs, Int32.toInt_ofNat_of_lt (by omega)]

theorem toUInt32_le_maxSlot {raw : Int32} (h : 0 ≤ raw) : raw.toUInt32 ≤ maxSlot :=
  Int32.toUInt32_le h (Int32.le_maxValue raw)

namespace Header

variable [Item α]

theorem exact_entry : Exact readEntry (Layout.Entry.bytes (α := α)) Layout.Entry.pair where
  reads e := by
    have hl : e.code.length < 2 ^ 31 := Nat.lt_of_le_of_lt e.code_le (by decide)
    have hd : (Item.decode e.code).mapError Error.itemCodec = .ok e.item := by
      rw [e.decodes]
      rfl
    have hn : ¬ e.slot.toInt32 < 0 := by
      rw [Int32.lt_iff_toInt_lt, toInt_toInt32 e.slot_le]
      simp
    have hb : e.bytes = Layout.count e.code.length ++
        (e.code ++ (Layout.int32 e.slot.toInt32 ++ [])) := by
      simp only [Layout.Entry.bytes, Layout.entry, List.append_assoc, List.append_nil]
    rw [hb]
    unfold readEntry
    refine ((Wire.exact_len _).reads ⟨_, hl⟩).bind ?_
    refine ((Wire.exact_bytes _ _).reads ⟨e.code, rfl, e.code_le⟩).bind ?_
    rw [hd, Reader.ofExcept_ok_bind]
    refine ((Wire.exact_i32 _).reads e.slot.toInt32).bind ?_
    rw [if_neg hn, UInt32.toUInt32_toInt32]
    exact Reads.pure e.pair
  layout h := by
    obtain ⟨len, s1, rfl, h1⟩ := (Wire.exact_len _).bind_layout h
    obtain ⟨⟨code, hlen, hle⟩, s2, rfl, h2⟩ := (Wire.exact_bytes _ _).bind_layout h1
    cases hd : Item.decode (α := α) code with
    | error e =>
      rw [hd] at h2
      cases h2
    | ok item =>
      rw [hd, Except.mapError, Reader.ofExcept_ok_bind] at h2
      obtain ⟨raw, s3, rfl, h3⟩ := (Wire.exact_i32 _).bind_layout h2
      split_ifs at h3 with hn
      · exact absurd h3 Reader.fail_ne_ok
      · obtain ⟨rfl, rfl⟩ := Reader.pure_eq_ok.mp h3
        have hs := toUInt32_le_maxSlot (Int32.not_lt.mp hn)
        refine ⟨⟨code, item, raw.toUInt32, hlen ▸ hle, hd, hs⟩, ?_, rfl⟩
        simp [Layout.Entry.bytes, Layout.entry, hlen]

theorem exact_entries : Exact readEntries
    (fun l : { l : List (Layout.Entry α) // l.length < 2 ^ 31 } =>
      Layout.count l.1.length ++ l.1.flatMap Layout.Entry.bytes)
    fun l => l.1.map Layout.Entry.pair where
  reads l := ((Wire.exact_len _).reads ⟨_, l.2⟩).bind ((exact_entry.times _).reads ⟨l.1, rfl⟩)
  layout h := by
    obtain ⟨count, s1, rfl, h1⟩ := (Wire.exact_len _).bind_layout h
    obtain ⟨⟨l, hl⟩, rfl, rfl⟩ := (exact_entry.times _).layout h1
    exact ⟨⟨l, hl ▸ count.2⟩, by simp only [Source.behind_append, hl], rfl⟩

/-- The fields of a body, in order. -/
theorem bytes_body (b : Layout.Body α) : b.bytes = [b.sparseGrad] ++
    (Layout.text b.typeName.string ++
      (Layout.count b.entries.length ++ b.entries.flatMap Layout.Entry.bytes)) := by
  simp only [Layout.Body.bytes, Layout.body, List.length_map, List.flatMap_map, List.append_assoc]
  rfl

theorem exact_body (version : UInt8) (shapes : List Shape) (zeroReserved : Option Bool) :
    Exact (readBody version shapes zeroReserved) (Layout.Body.bytes (α := α))
      fun b => b.header version shapes zeroReserved where
  reads b := by
    rw [bytes_body, ← List.append_nil (Layout.count _ ++ _)]
    unfold readBody
    refine ((Wire.exact_bool _).reads b.sparseGrad).bind ?_
    refine ((Parameter.exact_dataType _).reads b.typeName).bind ?_
    exact (exact_entries.reads ⟨b.entries, b.count_lt⟩).bind (Reads.pure _)
  layout h := by
    obtain ⟨flag, s1, rfl, h1⟩ := (Wire.exact_bool _).bind_layout h
    obtain ⟨typeName, s2, rfl, h2⟩ := (Parameter.exact_dataType _).bind_layout h1
    obtain ⟨⟨entries, hlt⟩, s3, rfl, h3⟩ := exact_entries.bind_layout h2
    obtain ⟨rfl, rfl⟩ := Reader.pure_eq_ok.mp h3
    refine ⟨⟨flag, typeName, entries, hlt⟩, ?_, rfl⟩
    simp only [bytes_body, Source.behind_append]

theorem exact_read : Exact read (Layout.Head.bytes (α := α)) Layout.Head.header where
  reads head := by
    unfold read
    cases head with
    | one => exact ((Wire.exact_u8 _).reads 1).bind (Reads.pure _)
    | two shapes hs =>
      show Reads _ ([2] ++ Layout.shapes shapes) _
      rw [← List.append_nil (Layout.shapes shapes)]
      refine ((Wire.exact_u8 _).reads 2).bind ?_
      exact (Shape.exact_readAll.reads ⟨shapes, hs⟩).bind (Reads.pure _)
    | three shapes hs zeroReserved body =>
      simp only [Layout.Head.bytes, List.append_assoc]
      refine ((Wire.exact_u8 _).reads 3).bind ((Shape.exact_readAll.reads ⟨shapes, hs⟩).bind ?_)
      refine ((Wire.exact_bool _).reads zeroReserved).bind ?_
      exact (exact_body _ _ _).reads body
    | four shapes hs body =>
      simp only [Layout.Head.bytes, List.append_assoc]
      refine ((Wire.exact_u8 _).reads 4).bind ((Shape.exact_readAll.reads ⟨shapes, hs⟩).bind ?_)
      exact (exact_body _ _ _).reads body
  layout h := by
    obtain ⟨version, s1, rfl, h1⟩ := (Wire.exact_u8 _).bind_layout h
    split_ifs at h1 with h4 h3 h2 h0
    · subst h4
      obtain ⟨⟨shapes, hs⟩, s2, rfl, h2⟩ := Shape.exact_readAll.bind_layout h1
      obtain ⟨body, rfl, rfl⟩ := (exact_body _ _ _).layout h2
      exact ⟨.four shapes hs body, by simp only [Layout.Head.bytes, Source.behind_append], rfl⟩
    · subst h3
      obtain ⟨⟨shapes, hs⟩, s2, rfl, h2⟩ := Shape.exact_readAll.bind_layout h1
      obtain ⟨flag, s3, rfl, h3⟩ := (Wire.exact_bool _).bind_layout h2
      obtain ⟨body, rfl, rfl⟩ := (exact_body _ _ _).layout h3
      exact ⟨.three shapes hs flag body, by simp only [Layout.Head.bytes, Source.behind_append], rfl⟩
    · subst h2
      obtain ⟨⟨shapes, hs⟩, s2, rfl, h2⟩ := Shape.exact_readAll.bind_layout h1
      obtain ⟨rfl, rfl⟩ := Reader.pure_eq_ok.mp h2
      exact ⟨.two shapes hs, by simp only [Layout.Head.bytes, Source.behind_append], rfl⟩
    · subst h0
      obtain ⟨rfl, rfl⟩ := Reader.pure_eq_ok.mp h1
      exact ⟨.one, rfl, rfl⟩
    · exact absurd h1 Reader.fail_ne_ok

end Header

namespace Persisted

variable [Item α]

/-- The header of a file and its named matrix, as they are stored. -/
def parts : Reader (Header α × String × Tensor) := do
  let header ← Header.read
  let (name, matrix) ← Parameter.read
  pure (header, name, matrix)

theorem parts_eq_ok {source rest : Source} {header : Header α} {name : String} {matrix : Tensor} :
    parts source = .ok ((header, name, matrix), rest) ↔
      ∃ after, Header.read source = .ok (header, after) ∧
        Parameter.read after = .ok ((name, matrix), rest) := by
  constructor
  · intro h
    obtain ⟨header, after, hh, h1⟩ := Reader.bind_eq_ok.mp h
    obtain ⟨⟨name, matrix⟩, s, hp, h2⟩ := Reader.bind_eq_ok.mp h1
    obtain ⟨h3, rfl⟩ := Reader.pure_eq_ok.mp h2
    cases h3
    exact ⟨after, hh, hp⟩
  · rintro ⟨after, hh, hp⟩
    exact Reader.bind_eq_ok.mpr ⟨header, after, hh, Reader.bind_eq_ok.mpr ⟨_, rest, hp, rfl⟩⟩

theorem exact_parts : Exact parts
    (fun l : Layout.Head α × Layout.Matrix => l.1.bytes ++ l.2.bytes)
    fun l => (l.1.header, l.2.name.string, l.2.tensor) where
  reads l := by
    rw [← List.append_nil l.2.bytes]
    exact (Header.exact_read.reads l.1).bind ((Parameter.exact_read.reads l.2).bind (Reads.pure _))
  layout h := by
    obtain ⟨head, s1, rfl, h1⟩ := Header.exact_read.bind_layout h
    obtain ⟨matrix, s2, rfl, h2⟩ := Parameter.exact_read.bind_layout h1
    obtain ⟨rfl, rfl⟩ := Reader.pure_eq_ok.mp h2
    exact ⟨(head, matrix), by rw [Source.behind_append], rfl⟩

/-- A header and a matrix are read off the first `n` bytes exactly if these bytes are the
layout of a header, of any of the four versions, followed by that of a matrix; and what is
read is what they say. -/
theorem read_parts_iff_layout (bytes : List UInt8) (ending : Ending) (rest : Source)
    (header : Header α) (name : String) (matrix : Tensor) :
    (∃ after, Header.read ⟨bytes, ending⟩ = .ok (header, after) ∧
      Parameter.read after = .ok ((name, matrix), rest)) ↔
    ∃ n ≤ bytes.length, rest = ⟨bytes.drop n, ending⟩ ∧
      ∃ (head : Layout.Head α) (m : Layout.Matrix), bytes.take n = head.bytes ++ m.bytes ∧
        header = head.header ∧ name = m.name.string ∧ matrix = m.tensor := by
  rw [← parts_eq_ok, exact_parts.eq_ok_iff]
  simp only [Prod.exists, Prod.mk.injEq]

end Persisted
end VectorTable
