import VectorTable.Proofs.Table.Canonical

/-! Items as files know them. A file holds the bytes of its items and does not say of what type
they are, so a reader that takes the bytes themselves for the items reads whatever any other
reader reads. Tables of two types that were restored from one source have that table of bytes in
common, and since a table is saved by the bytes of its items, they are saved alike. -/
namespace VectorTable

/-- An item that is nothing but its bytes. -/
structure Code where
  bytes : List UInt8
  deriving DecidableEq, Repr

instance : Item Code where
  encode c := c.bytes
  decode bytes := .ok ⟨bytes⟩
  debug c := toString c.bytes

instance : LawfulItem Code where
  decode_encode _ := rfl
  encode_of_decode h := by
    cases h
    rfl

section Maps

variable {α : Type} [Item α]

def coded (e : α × Slot) : Code × Slot := (⟨Item.encode e.1⟩, e.2)

def Index.codes (i : Index α) : Index Code := ⟨i.entries.map coded, i.numItems⟩

def Header.codes (h : Header α) : Header Code :=
  ⟨h.version, h.inputShapes, h.zeroReserved, h.sparseGrad, h.dataType,
    h.entries.map (List.map coded)⟩

def Persisted.codes (p : Persisted α) : Persisted Code :=
  ⟨p.version, p.inputShapes, p.sparseGrad, p.dataType, p.index.map Index.codes, p.matrix,
    p.numItems, p.width, p.retrofitted⟩

def Image.codes (image : Image α) : Image Code :=
  ⟨image.inputShapes, image.sparseGrad, image.dataType, image.entries.map coded, image.matrix⟩

/-- The table of the bytes of the items, which refuses all others. -/
def Table.codes (t : Table α) : Table Code :=
  ⟨t.index.codes, t.matrix, t.width, t.dataType, t.sparseGrad, .none, t.inputShapes⟩

namespace Layout

def Entry.codes (e : Entry α) : Entry Code := ⟨e.code, ⟨e.code⟩, e.slot, e.code_le, rfl, e.slot_le⟩

def Body.codes (b : Body α) : Body Code :=
  ⟨b.sparseGrad, b.typeName, b.entries.map Entry.codes, by rw [List.length_map]; exact b.count_lt⟩

def Head.codes : Head α → Head Code
  | .one => .one
  | .two s hs => .two s hs
  | .three s hs zeroReserved b => .three s hs zeroReserved b.codes
  | .four s hs b => .four s hs b.codes

theorem Body.bytes_codes (b : Body α) : b.codes.bytes = b.bytes := by
  have he : b.codes.entries.map (fun e => (e.code, e.slot)) =
      b.entries.map fun e => (e.code, e.slot) := by
    rw [Body.codes, List.map_map]
    rfl
  rw [Body.bytes, he]
  rfl

theorem Head.bytes_codes (head : Head α) : head.codes.bytes = head.bytes := by
  cases head with
  | one => rfl
  | two => rfl
  | three s hs zeroReserved b => simp only [codes, Head.bytes, Body.bytes_codes]
  | four s hs b => simp only [codes, Head.bytes, Body.bytes_codes]

variable [LawfulItem α]

theorem Body.header_codes (b : Body α) (version : UInt8) (shapes : List Shape)
    (zeroReserved : Option Bool) :
    b.codes.header version shapes zeroReserved = (b.header version shapes zeroReserved).codes := by
  have he : b.codes.entries.map Entry.pair = (b.entries.map Entry.pair).map coded := by
    rw [Body.codes, List.map_map, List.map_map]
    refine List.map_congr_left fun e _ => ?_
    show ((⟨e.code⟩, e.slot) : Code × Slot) = (⟨Item.encode e.item⟩, e.slot)
    rw [e.encode_item]
  rw [Body.header, he]
  rfl

theorem Head.header_codes (head : Head α) : head.codes.header = head.header.codes := by
  cases head with
  | one => rfl
  | two => rfl
  | three s hs zeroReserved b => exact b.header_codes _ _ _
  | four s hs b => exact b.header_codes _ _ _

end Layout

/-- A table is written by the bytes of its items. -/
theorem Image.write_codes (image : Image α) : image.codes.write = image.write := by
  have he : ∀ l : List (α × Slot), (l.map coded).forM writeEntry = l.forM writeEntry := by
    intro l
    induction l with
    | nil => rfl
    | cons e l ih =>
      show (writeEntry (coded e) >>= fun _ => (l.map coded).forM writeEntry) =
        (writeEntry e >>= fun _ => l.forM writeEntry)
      rw [ih]
      rfl
  simp only [write, codes, he, List.length_map]

theorem Table.save_codes (t : Table α) (limit : Option Nat) : t.codes.save limit = t.save limit := by
  have hw := t.image.write_codes
  have hs : t.image.codes.saved = t.image.saved := by simp [Image.saved, Image.codes]
  show t.image.codes.save limit = t.image.save limit
  simp only [Image.save, hw, hs]

end Maps

section Lawful

variable {α : Type} [Item α] [LawfulItem α]

/-- Distinct items have distinct bytes. -/
theorem encode_injective : Function.Injective (Item.encode : α → List UInt8) := by
  intro x y h
  have hx := LawfulItem.decode_encode x
  rw [h, LawfulItem.decode_encode y] at hx
  exact (Except.ok.inj hx).symm

theorem assigned_map_coded {low high : Nat} {entries : List (α × Slot)} :
    Assigned low high (entries.map coded) ↔ Assigned low high entries := by
  have hitems : (entries.map coded).map Prod.fst =
      (entries.map Prod.fst).map fun x => (⟨Item.encode x⟩ : Code) := by simp [coded]
  have hslots : (entries.map coded).map Prod.snd = entries.map Prod.snd := by simp [coded]
  have hinj : Function.Injective fun x : α => (⟨Item.encode x⟩ : Code) := fun x y h =>
    encode_injective (Code.mk.inj h)
  constructor
  · rintro ⟨hr, hi, hs⟩
    rw [hitems, List.nodup_map_iff hinj] at hi
    rw [hslots] at hs
    exact ⟨fun e he => hr (coded e) (List.mem_map_of_mem he), hi, hs⟩
  · rintro ⟨hr, hi, hs⟩
    refine ⟨?_, ?_, ?_⟩
    · intro e he
      obtain ⟨e', he', rfl⟩ := List.mem_map.mp he
      exact hr e' he'
    · rwa [hitems, List.nodup_map_iff hinj]
    · rwa [hslots]

variable [DecidableEq α]

/-- Whether entries make an index, and in which order they stand in it, is a matter of the slots
and of which items are the same. -/
theorem Index.ofEntries_map_coded {entries : List (α × Slot)} {numItems : Nat} {j : Index Code} :
    ofEntries (entries.map coded) numItems = .ok j ↔
      ∃ i, ofEntries entries numItems = .ok i ∧ j = i.codes := by
  have hsort : (entries.mergeSort fun a b => a.2 ≤ b.2).map coded =
      (entries.map coded).mergeSort fun a b => a.2 ≤ b.2 :=
    List.map_mergeSort fun _ _ _ _ => rfl
  rw [ofEntries_eq_ok, assigned_map_coded, ← hsort]
  constructor
  · rintro ⟨hn, ha, rfl⟩
    exact ⟨_, ofEntries_eq_ok.mpr ⟨hn, ha, rfl⟩, rfl⟩
  · rintro ⟨i, hi, rfl⟩
    obtain ⟨hn, ha, rfl⟩ := ofEntries_eq_ok.mp hi
    exact ⟨hn, ha, rfl⟩

namespace Persisted

theorem indexOf_codes {entries : Option (List (α × Slot))} {retrofitted : Bool} {numItems : Nat}
    {index : Option (Index Code)} :
    indexOf (entries.map (List.map coded)) retrofitted numItems = .ok index ↔
      ∃ i, indexOf entries retrofitted numItems = .ok i ∧ index = i.map Index.codes := by
  have hsome : ∀ {moved : List (α × Slot)},
      (∃ j, Index.ofEntries (moved.map coded) numItems = .ok j ∧ some j = index) ↔
        ∃ i, (∃ j, Index.ofEntries moved numItems = .ok j ∧ some j = i) ∧
          index = i.map Index.codes := by
    intro moved
    simp only [Index.ofEntries_map_coded]
    constructor
    · rintro ⟨_, ⟨j, hj, rfl⟩, rfl⟩
      exact ⟨some j, ⟨j, hj, rfl⟩, rfl⟩
    · rintro ⟨_, ⟨j, hj, rfl⟩, rfl⟩
      exact ⟨j.codes, ⟨j, hj, rfl⟩, rfl⟩
  cases entries with
  | none =>
    constructor
    · intro h
      cases h
      exact ⟨none, rfl, rfl⟩
    · rintro ⟨i, hi, rfl⟩
      cases hi
      rfl
  | some entries =>
    rw [Option.map_some]
    cases retrofitted with
    | false => simp only [indexOf_kept, hsome]
    | true =>
      have hshift : (entries.map coded).map Migration.shift =
          (entries.map Migration.shift).map coded := by
        rw [List.map_map, List.map_map]
        rfl
      have hfits : (∀ e ∈ entries.map coded, e.2 < maxSlot) ↔ ∀ e ∈ entries, e.2 < maxSlot := by
        rw [List.forall_mem_map]
        rfl
      simp only [indexOf_shifted, hshift, hfits, hsome]
      constructor
      · rintro ⟨hb, i, hi, he⟩
        exact ⟨i, ⟨hb, hi⟩, he⟩
      · rintro ⟨i, ⟨hb, hi⟩, he⟩
        exact ⟨hb, i, hi, he⟩

theorem assemble_codes {header : Header α} {stored : Tensor} {p : Persisted Code} :
    (assemble header.codes stored).result = .ok p ↔
      ∃ q, (assemble header stored).result = .ok q ∧ p = q.codes := by
  simp only [assemble_eq_ok]
  constructor
  · rintro ⟨rows, cols, matrix, retrofitted, numItems, width, index, hd, hm, hd', h1, hi, rfl⟩
    obtain ⟨i, hq, rfl⟩ := indexOf_codes.mp hi
    exact ⟨_, ⟨rows, cols, matrix, retrofitted, numItems, width, i, hd, hm, hd', h1, hq, rfl⟩, rfl⟩
  · rintro ⟨q, ⟨rows, cols, matrix, retrofitted, numItems, width, i, hd, hm, hd', h1, hi, rfl⟩, rfl⟩
    exact ⟨rows, cols, matrix, retrofitted, numItems, width, _, hd, hm, hd', h1,
      indexOf_codes.mpr ⟨i, hi, rfl⟩, rfl⟩

omit [DecidableEq α] in
theorem Holds.codes {source rest : Source} {header : Header α} {stored : Tensor}
    (h : Holds source header stored rest) : Holds source header.codes stored rest := by
  obtain ⟨after, name, hh, hp⟩ := h
  obtain ⟨head, rfl, rfl⟩ := Header.exact_read.layout hh
  refine ⟨after, name, ?_, hp⟩
  rw [← head.header_codes, ← head.bytes_codes]
  exact Header.exact_read.reads head.codes after.bytes after.ending

theorem read_codes {source rest : Source} {p : Persisted α}
    (h : (read source).result = .ok (p, rest)) :
    (read source).result = .ok (p.codes, rest) := by
  obtain ⟨header, stored, hh, ha⟩ := read_eq_ok.mp h
  exact read_eq_ok.mpr ⟨header.codes, stored, hh.codes, assemble_codes.mpr ⟨p, ha, rfl⟩⟩

end Persisted

namespace Table

/-- What is restored from a source, restored from it as bytes. -/
theorem restore_codes {source rest : Source} {fallthrough : Fallthrough α} {t : Table α}
    (h : (restore source fallthrough).result = .ok (t, rest)) :
    (restore source (.none : Fallthrough Code)).result = .ok (t.codes, rest) := by
  obtain ⟨p, type, hp, hm, ha⟩ := restore_eq_ok.mp h
  obtain ⟨index, dataType, hi, hd, rfl⟩ := applied_eq_ok.mp ha
  refine restore_eq_ok.mpr ⟨p.codes, type, Persisted.read_codes hp, hm, ?_⟩
  refine applied_eq_ok.mpr ⟨index.codes, dataType, ?_, hd, rfl⟩
  unfold indexAfter at hi ⊢
  cases hx : p.index with
  | some i =>
    rw [hx] at hi
    cases hi
    simp [Persisted.codes, hx]
  | none =>
    rw [hx] at hi
    simp only [Persisted.codes, hx, Option.map_none]
    exact Index.ofEntries_map_coded.mpr ⟨index, hi, rfl⟩

/-- A table that was restored is saved without fail. -/
theorem save_of_restored {source rest : Source} {fallthrough : Fallthrough α} {t : Table α}
    (h : (restore source fallthrough).result = .ok (t, rest)) :
    ∃ bytes, (t.save none).result = .ok bytes := by
  have hcoh := coherent_of_restore h
  obtain ⟨type, hm⟩ := hcoh.matrix
  have hfits := (hcoh.image_storable (items_of_restore h)).fits hm.dims_eq
  exact ⟨_, save_iff_writes.mpr ((Image.leaves hm.elementType_eq).writes hfits)⟩

end Table

end Lawful

section Alike

variable {α β : Type} [DecidableEq α] [Item α] [LawfulItem α] [DecidableEq β] [Item β]
  [LawfulItem β]

/-- The items of the one type stand for the bytes that those of the other stand for. -/
def DecodesWhere (α β : Type) [Item α] [Item β] : Prop :=
  ∀ code (x : α), Item.decode code = .ok x → ∃ y : β, Item.decode code = .ok y

omit [DecidableEq α] [LawfulItem α] [DecidableEq β] [LawfulItem β] in
theorem Layout.Entry.exists_codes (h : DecodesWhere α β) (entries : List (Entry α)) :
    ∃ entries' : List (Entry β), entries'.map Entry.codes = entries.map Entry.codes := by
  induction entries with
  | nil => exact ⟨[], rfl⟩
  | cons e entries ih =>
    obtain ⟨entries', hentries⟩ := ih
    obtain ⟨y, hy⟩ := h e.code e.item e.decodes
    refine ⟨⟨e.code, y, e.slot, e.code_le, hy, e.slot_le⟩ :: entries', ?_⟩
    rw [List.map_cons, List.map_cons, hentries]
    rfl

omit [DecidableEq α] [LawfulItem α] [DecidableEq β] [LawfulItem β] in
theorem Layout.Body.exists_codes (h : DecodesWhere α β) (b : Body α) :
    ∃ b' : Body β, b'.codes = b.codes := by
  obtain ⟨entries, he⟩ := Entry.exists_codes h b.entries
  have hl : entries.length = b.entries.length := by
    have hlength := congrArg List.length he
    rwa [List.length_map, List.length_map] at hlength
  refine ⟨⟨b.sparseGrad, b.typeName, entries, hl ▸ b.count_lt⟩, ?_⟩
  simp only [codes, he]

omit [DecidableEq α] [LawfulItem α] [DecidableEq β] [LawfulItem β] in
theorem Layout.Head.exists_codes (h : DecodesWhere α β) (head : Head α) :
    ∃ head' : Head β, head'.codes = head.codes := by
  cases head with
  | one => exact ⟨.one, rfl⟩
  | two s hs => exact ⟨.two s hs, rfl⟩
  | three s hs zeroReserved b =>
    obtain ⟨b', hb⟩ := Body.exists_codes h b
    exact ⟨.three s hs zeroReserved b', by rw [codes, hb]; rfl⟩
  | four s hs b =>
    obtain ⟨b', hb⟩ := Body.exists_codes h b
    exact ⟨.four s hs b', by rw [codes, hb]; rfl⟩

/-- A source that makes a table of one type makes one of the other. -/
theorem Table.restore_of_decodesWhere (h : DecodesWhere α β) {source rest : Source}
    {fallthrough : Fallthrough α} {t : Table α}
    (ht : (restore source fallthrough).result = .ok (t, rest)) (fallthrough' : Fallthrough β) :
    ∃ t' : Table β, (restore source fallthrough').result = .ok (t', rest) := by
  obtain ⟨p, -, hp, -, -⟩ := restore_eq_ok.mp ht
  obtain ⟨header, stored, ⟨after, name, hh, hm⟩, ha⟩ := Persisted.read_eq_ok.mp hp
  obtain ⟨head, rfl, rfl⟩ := Header.exact_read.layout hh
  obtain ⟨head', hcodes⟩ := Layout.Head.exists_codes h head
  have hbytes : head'.bytes = head.bytes := by
    rw [← head'.bytes_codes, hcodes, head.bytes_codes]
  have hheader : head'.header.codes = head.header.codes := by
    rw [← head'.header_codes, hcodes, head.header_codes]
  have hh' : Header.read (after.behind head.bytes) = .ok (head'.header, after) := by
    rw [← hbytes]
    exact Header.exact_read.reads head' after.bytes after.ending
  have ha' := Persisted.assemble_codes.mpr ⟨p, ha, rfl⟩
  rw [← hheader] at ha'
  obtain ⟨q, hq, -⟩ := Persisted.assemble_codes.mp ha'
  exact restore_of_read (Persisted.read_eq_ok.mpr ⟨_, stored, ⟨after, name, hh', hm⟩, hq⟩) _

theorem Table.restores_iff (h : DecodesWhere α β) (h' : DecodesWhere β α) (source rest : Source)
    (fallthrough : Fallthrough α) (fallthrough' : Fallthrough β) :
    (∃ t, (restore source fallthrough).result = .ok (t, rest)) ↔
      ∃ t, (restore source fallthrough').result = .ok (t, rest) :=
  ⟨fun ⟨_, ht⟩ => restore_of_decodesWhere h ht _, fun ⟨_, ht⟩ => restore_of_decodesWhere h' ht _⟩

/-- Words of one width stand for the same bytes, whatever they count as. -/
theorem Item.decodeWord_width {γ δ : Type} {width : Nat} {typeName : String} {ofNat : Nat → γ}
    {code : List UInt8} {x : γ} (h : decodeWord width typeName ofNat code = .ok x)
    (typeName' : String) (ofNat' : Nat → δ) :
    ∃ y, decodeWord width typeName' ofNat' code = .ok y := by
  unfold decodeWord at h ⊢
  split_ifs at h with hw
  rw [if_pos hw]
  exact ⟨_, rfl⟩

/-- Tables of two types of items that were restored from one source are saved in the same bytes.
Signed and unsigned words of one width are restored from the same sources. -/
theorem Table.saved_alike :
    (∀ {source rest rest' : Source} {fallthrough : Fallthrough α} {fallthrough' : Fallthrough β}
      {t : Table α} {t' : Table β}, (restore source fallthrough).result = .ok (t, rest) →
      (restore source fallthrough').result = .ok (t', rest') →
      rest' = rest ∧ (∀ limit, t'.save limit = t.save limit) ∧
        ∃ bytes, (t.save none).result = .ok bytes ∧ (t'.save none).result = .ok bytes) ∧
    (∀ source rest (fallthrough : Fallthrough UInt32) (fallthrough' : Fallthrough Int32),
      (∃ t, (restore source fallthrough).result = .ok (t, rest)) ↔
        ∃ t, (restore source fallthrough').result = .ok (t, rest)) ∧
    ∀ source rest (fallthrough : Fallthrough UInt64) (fallthrough' : Fallthrough Int64),
      (∃ t, (restore source fallthrough).result = .ok (t, rest)) ↔
        ∃ t, (restore source fallthrough').result = .ok (t, rest) := by
  refine ⟨?_, ?_, ?_⟩
  · intro source rest rest' fallthrough fallthrough' t t' ht ht'
    have hcodes := restore_codes ht
    rw [restore_codes ht'] at hcodes
    obtain ⟨hc, rfl⟩ := Prod.mk.inj (Except.ok.inj hcodes)
    have hsave : ∀ limit, t'.save limit = t.save limit := by
      intro limit
      rw [← t'.save_codes, hc, t.save_codes]
    obtain ⟨bytes, hb⟩ := save_of_restored ht
    exact ⟨rfl, hsave, bytes, hb, by rw [hsave, hb]⟩
  · have hsigned : DecodesWhere UInt32 Int32 := fun _ _ h => Item.decodeWord_width h _ _
    have hunsigned : DecodesWhere Int32 UInt32 := fun _ _ h => Item.decodeWord_width h _ _
    exact restores_iff hsigned hunsigned
  · have hsigned : DecodesWhere UInt64 Int64 := fun _ _ h => Item.decodeWord_width h _ _
    have hunsigned : DecodesWhere Int64 UInt64 := fun _ _ h => Item.decodeWord_width h _ _
    exact restores_iff hsigned hunsigned

end Alike

/-- The table of the same file with its item taken for a text. -/
def Table.movedText : Table String :=
  ⟨⟨[("\x00\x00\x00\x07", 1)], 2⟩, movedItem.matrix, 2, .uint8, true, .none, []⟩

theorem Table.restore_movedText :
    (restore (Persisted.oneItem 0) .none).result = .ok (movedText, ⟨[], .endOfData⟩) := by
  cbv

/-- The item is four bytes of either type, and so it is saved. -/
theorem Table.saved_alike_moved :
    (restore (Persisted.oneItem 0) .none).result = .ok (movedItem, ⟨[], .endOfData⟩) ∧
    (restore (Persisted.oneItem 0) .none).result = .ok (movedText, ⟨[], .endOfData⟩) ∧
      (movedItem.save none).result = .ok movedFile.bytes ∧
      (movedText.save none).result = .ok movedFile.bytes := by
  obtain ⟨-, hsave, -⟩ := saved_alike.1 restore_movedItem restore_movedText
  have hbytes : (movedItem.save none).result = .ok movedFile.bytes := by cbv
  refine ⟨restore_movedItem, restore_movedText, hbytes, ?_⟩
  rw [hsave, hbytes]

end VectorTable
