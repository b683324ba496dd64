import VectorTable.Proofs.Grammar
import VectorTable.Proofs.Index

/-! Headers. A header of the current version carries every field of a table, and
each version of the format has a form of its own, which says what fields its
headers have and within which limits. -/
namespace VectorTable

/-- Slots that a file can hold. -/
def SlotsFit {α : Type} (entries : List (α × Slot)) : Prop := ∀ e ∈ entries, e.2 ≤ maxSlot

namespace Header

variable {α : Type} [Item α]

theorem reads_entry [LawfulItem α] {e : α × Slot} (hb : (Item.encode e.1).length ≤ Wire.maxBytes)
    (hs : e.2 ≤ maxSlot) : Reads readEntry (Layout.entry (Item.encode e.1) e.2) e :=
  exact_entry.reads ⟨_, e.1, e.2, hb, LawfulItem.decode_encode e.1, hs⟩

theorem carries_entry [LawfulItem α] {e : α × Slot} (hb : (Item.encode e.1).length ≤ Wire.maxBytes)
    (hs : e.2 ≤ maxSlot) : Carries (Image.writeEntry e) readEntry e :=
  ⟨_, (Image.leaves_entry e).writes (Nat.lt_of_le_of_lt hb (by decide)), reads_entry hb hs⟩

theorem carries_entries [LawfulItem α] {entries : List (α × Slot)}
    (hb : ∀ e ∈ entries, (Item.encode e.1).length ≤ Wire.maxBytes) (hs : SlotsFit entries)
    (hl : entries.length < 2 ^ 31) :
    Carries (do Wire.writeLen entries.length "explicit item count"; entries.forM Image.writeEntry)
      readEntries entries := by
  unfold readEntries
  refine (Wire.carries_len hl _ _).bind ?_
  exact Carries.times fun e he => carries_entry (hb e he) (hs e he)

/-- The headers of each version. -/
inductive Form : Header α → Prop
  | one : Form { version := 1 }
  | two {shapes : List Shape} (hs : Shape.AllStorable shapes) :
      Form { version := 2, inputShapes := some shapes }
  | three {shapes : List Shape} {entries : List (α × Slot)} (hs : Shape.AllStorable shapes)
      (he : SlotsFit entries) (zeroReserved sparseGrad : Bool) (type : DataType) :
      Form ⟨3, some shapes, some zeroReserved, some sparseGrad, some type, some entries⟩
  | four {shapes : List Shape} {entries : List (α × Slot)} (hs : Shape.AllStorable shapes)
      (he : SlotsFit entries) (sparseGrad : Bool) (type : DataType) :
      Form ⟨4, some shapes, none, some sparseGrad, some type, some entries⟩

theorem slotsFit_pairs (entries : List (Layout.Entry α)) :
    SlotsFit (entries.map Layout.Entry.pair) := by
  intro e he
  obtain ⟨entry, -, rfl⟩ := List.mem_map.mp he
  exact entry.slot_le

theorem form_of_read {source after : Source} {header : Header α}
    (h : read source = .ok (header, after)) : header.Form := by
  obtain ⟨head, -, rfl⟩ := exact_read.layout h
  cases head with
  | one => exact .one
  | two shapes hs => exact .two hs
  | three shapes hs zeroReserved body => exact .three hs (slotsFit_pairs body.entries) _ _ _
  | four shapes hs body => exact .four hs (slotsFit_pairs body.entries) _ _

/-- The first byte of a file is its version. -/
theorem head_of_read {source after : Source} {header : Header α}
    (h : read source = .ok (header, after)) : source.bytes.head? = some header.version := by
  obtain ⟨head, hs, rfl⟩ := exact_read.layout h
  rw [hs]
  cases head <;> rfl

/-- A file of the third version whose zero-reserved byte is `flag`. -/
def FlagByte (source : Source) (flag : UInt8) : Prop :=
  ∃ tail shapes after, source.bytes = 3 :: tail ∧
    Shape.readAll ⟨tail, source.ending⟩ = .ok (shapes, ⟨flag :: after, source.ending⟩)

theorem flag_of_read {source after : Source} {header : Header α} {flag : UInt8}
    (hf : FlagByte source flag) (h : read source = .ok (header, after)) :
    header.version = 3 ∧ header.zeroReserved = some (flag != 0) := by
  obtain ⟨tail, shapes, behind, hb, hs⟩ := hf
  obtain ⟨bytes, ending⟩ := source
  dsimp only at hb hs
  subst hb
  have hv : 3 = header.version := Option.some.inj (head_of_read h)
  obtain ⟨head, hsource, rfl⟩ := exact_read.layout h
  cases head with
  | one => cases hv
  | two => cases hv
  | four => cases hv
  | three shapes' hs' zeroReserved body =>
    have hr := Shape.exact_readAll.reads ⟨shapes', hs'⟩ (zeroReserved :: (body.bytes ++ after.bytes))
      after.ending
    simp only [Layout.Head.bytes, Source.behind, List.append_assoc, List.cons_append,
      List.nil_append, Source.mk.injEq, List.cons.injEq, true_and] at hsource
    obtain ⟨rfl, rfl⟩ := hsource
    rw [hr] at hs
    cases hs
    exact ⟨rfl, rfl⟩

end Header

namespace Image

variable {α : Type} [Item α]

/-- What an image says before its matrix. -/
def header (image : Image α) : Header α :=
  ⟨currentVersion, some image.inputShapes, none, some image.sparseGrad, some image.dataType,
    some image.entries⟩

def writeHeader (image : Image α) : Writer Unit := do
  Wire.writeU8 currentVersion
  Shape.writeAll image.inputShapes
  Wire.writeBool image.sparseGrad
  Wire.writeUtf image.dataType.name
  Wire.writeLen image.entries.length "explicit item count"
  image.entries.forM writeEntry

theorem write_eq (image : Image α) :
    image.write = image.writeHeader >>= fun _ => Parameter.write parameterName image.matrix := by
  simp only [write, writeHeader, Run.bind_assoc]

/-- An image within the limits of the format. -/
structure Storable (image : Image α) : Prop where
  shapes : Shape.AllStorable image.inputShapes
  items : ∀ e ∈ image.entries, (Item.encode e.1).length ≤ Wire.maxBytes
  slots : SlotsFit image.entries
  count : image.entries.length < 2 ^ 31

/-- What a reader takes fits its fields. -/
theorem Storable.fits {image : Image α} (h : image.Storable) {rows cols : Nat}
    (hd : image.matrix.dims = [rows, cols]) : image.Fits where
  shapes_lt := h.shapes.fits.1
  shapes := h.shapes.fits.2
  count_lt := h.count
  items e he := Nat.lt_of_le_of_lt (h.items e he) (by decide)
  matrix := hd ▸ Shape.fits_pair rows cols

theorem Storable.carries_header [LawfulItem α] {image : Image α} (h : image.Storable) :
    Carries image.writeHeader Header.read image.header := by
  unfold writeHeader Header.read
  refine (Wire.carries_u8 currentVersion _).bind ?_
  rw [if_pos (show currentVersion = 4 from rfl)]
  refine (Shape.carries_all h.shapes).bind ?_
  unfold Header.readBody
  refine (Wire.carries_bool image.sparseGrad _).bind ?_
  refine (Parameter.carries_dataType image.dataType _).bind ?_
  exact (Header.carries_entries h.items h.slots h.count).map (Reads.pure image.header)

end Image
end VectorTable
