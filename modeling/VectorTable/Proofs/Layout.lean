import VectorTable.Persisted
import VectorTable.Proofs.Parameter

/-! How a file is laid out, byte by byte. Functions give the bytes of each field;
structures put fields together and carry the limits that the format sets, so that
every layout is one that a file can have. What a layout leaves open is what files may
differ in without saying anything else: any byte but zero for a flag that is set, a
data type in capitals, the layout text of the matrix. The writer leaves exactly the
bytes given here, and it succeeds exactly if every length fits its field. -/
namespace VectorTable

namespace Layout

def uint16 (v : UInt16) : List UInt8 := bigEndian 2 v.toNat

def int32 (v : Int32) : List UInt8 := bigEndian 4 v.toUInt32.toNat

def int64 (v : Int64) : List UInt8 := bigEndian 8 v.toUInt64.toNat

/-- A count or a length. -/
def count (n : Nat) : List UInt8 := int32 (Int32.ofNat n)

/-- A text behind the number of its bytes. -/
def text (s : String) : List UInt8 :=
  uint16 (UInt16.ofNat (Utf8.encode s).length) ++ Utf8.encode s

def shape (s : Shape) : List UInt8 :=
  count s.dims.length ++ s.dims.flatMap int64 ++
    count (Utf16.encode s.layout).length ++ (Utf16.encode s.layout).flatMap uint16

def shapes (l : List Shape) : List UInt8 := count l.length ++ l.flatMap shape

def entry (code : List UInt8) (slot : Slot) : List UInt8 :=
  count code.length ++ code ++ int32 slot.toInt32

/-- What versions 3 and 4 say behind the shapes and the zero-reserved flag. -/
def body (sparseGrad : UInt8) (typeName : String) (entries : List (List UInt8 × Slot)) :
    List UInt8 :=
  [sparseGrad] ++ text typeName ++ count entries.length ++ entries.flatMap fun e => entry e.1 e.2

/-- The marker is the letter P. -/
def parameter (name typeName : String) (s : Shape) (data : List UInt8) : List UInt8 :=
  uint16 0x50 ++ [1] ++ text name ++ text typeName ++ shape s ++
    int64 (Int64.ofNat data.length) ++ data

structure Text where
  string : String
  fits : (Utf8.encode string).length < 2 ^ 16

/-- The name of a data type in any mixture of ASCII cases. -/
structure TypeName extends Text where
  type : DataType
  names : lowerAscii string = type.name

structure Entry (α : Type) [Item α] where
  code : List UInt8
  item : α
  slot : Slot
  code_le : code.length ≤ Wire.maxBytes
  decodes : Item.decode code = .ok item
  slot_le : slot ≤ maxSlot

structure Body (α : Type) [Item α] where
  sparseGrad : UInt8
  typeName : TypeName
  entries : List (Entry α)
  count_lt : entries.length < 2 ^ 31

/-- Everything in front of the matrix, by version. -/
inductive Head (α : Type) [Item α] where
  | one
  | two (shapes : List Shape) (hs : Shape.AllStorable shapes)
  | three (shapes : List Shape) (hs : Shape.AllStorable shapes) (zeroReserved : UInt8)
    (body : Body α)
  | four (shapes : List Shape) (hs : Shape.AllStorable shapes) (body : Body α)

structure Matrix where
  name : Text
  typeName : TypeName
  rows : Nat
  cols : Nat
  /-- The layout text of the shape. -/
  axes : String
  data : List UInt8
  rows_lt : rows < 2 ^ 63
  cols_lt : cols < 2 ^ 63
  axes_le : (Utf16.encode axes).length ≤ Shape.maxRank
  length_data : data.length = rows * cols * typeName.type.width
  length_lt : data.length < 2 ^ 63

section Fields

variable {α : Type} [Item α]

def Entry.pair (e : Entry α) : α × Slot := (e.item, e.slot)

theorem Entry.encode_item [LawfulItem α] (e : Entry α) : Item.encode e.item = e.code :=
  LawfulItem.encode_of_decode e.decodes

def Entry.bytes (e : Entry α) : List UInt8 := entry e.code e.slot

def Body.bytes (b : Body α) : List UInt8 :=
  body b.sparseGrad b.typeName.string (b.entries.map fun e => (e.code, e.slot))

def Head.bytes : Head α → List UInt8
  | .one => [1]
  | .two s _ => [2] ++ shapes s
  | .three s _ zeroReserved b => [3] ++ shapes s ++ [zeroReserved] ++ b.bytes
  | .four s _ b => [4] ++ shapes s ++ b.bytes

/-- What the fields say. Any byte but zero is a flag that is set. -/
def Body.header (b : Body α) (version : UInt8) (shapes : List Shape) (zeroReserved : Option Bool) :
    Header α :=
  ⟨version, some shapes, zeroReserved, some (b.sparseGrad != 0), some b.typeName.type,
    some (b.entries.map Entry.pair)⟩

def Head.header : Head α → Header α
  | .one => { version := 1 }
  | .two s _ => { version := 2, inputShapes := some s }
  | .three s _ zeroReserved b => b.header 3 s (some (zeroReserved != 0))
  | .four s _ b => b.header 4 s none

end Fields

namespace Matrix

def shape (m : Matrix) : Shape := ⟨[Int64.ofNat m.rows, Int64.ofNat m.cols], m.axes⟩

def bytes (m : Matrix) : List UInt8 := parameter m.name.string m.typeName.string m.shape m.data

def tensor (m : Matrix) : Tensor where
  elementType := .storable m.typeName.type
  dims := [m.rows, m.cols]
  data := m.data
  contiguous := true
  length_data := by rw [cellCount_pair]; exact m.length_data

end Matrix
end Layout

/-- The writer succeeds exactly under a condition, and then it leaves these bytes. -/
def Leaves (w : Writer Unit) (c : Prop) (bytes : List UInt8) : Prop :=
  ∀ out, Writes w out ↔ c ∧ out = bytes

theorem Carries.reads {α : Type} {w : Writer Unit} {r : Reader α} {a : α} {bytes : List UInt8}
    (h : Carries w r a) (hw : Writes w bytes) : Reads r bytes a := by
  obtain ⟨out, ho, hr⟩ := h
  rwa [← hw.2, ho.2]

namespace Leaves

variable {w v : Writer Unit} {c d : Prop} {front back bytes : List UInt8}

theorem writes (h : Leaves w c bytes) (hc : c) : Writes w bytes := (h bytes).mpr ⟨hc, rfl⟩

theorem congr (h : Leaves w c front) (hc : c ↔ d) (hb : front = back) : Leaves w d back := by
  intro out
  rw [h out, hc, hb]

theorem of_true (h : Leaves w c bytes) (hc : c) : Leaves w True bytes :=
  h.congr (iff_true_intro hc) rfl

theorem put (bytes : List UInt8) : Leaves (Writer.put bytes) True bytes := by
  intro out
  constructor
  · rintro ⟨-, rfl⟩
    exact ⟨trivial, rfl⟩
  · rintro ⟨-, rfl⟩
    exact .put _

theorem fail (e : Error) (bytes : List UInt8) : Leaves (Writer.fail e) False bytes := by
  intro out
  constructor
  · rintro ⟨h, -⟩
    cases h
  · rintro ⟨h, -⟩
    cases h

theorem bind (hw : Leaves w c front) (hv : Leaves v d back) :
    Leaves (w >>= fun _ => v) (c ∧ d) (front ++ back) := by
  intro out
  constructor
  · rintro ⟨h, rfl⟩
    obtain ⟨⟨⟩, h1, h2⟩ := Run.bind_eq_ok.mp h
    obtain ⟨hc, rfl⟩ := (hw _).mp ⟨h1, rfl⟩
    obtain ⟨hd, rfl⟩ := (hv _).mp ⟨h2, rfl⟩
    exact ⟨⟨hc, hd⟩, Run.trail_bind_ok _ h1⟩
  · rintro ⟨⟨hc, hd⟩, rfl⟩
    exact (hw.writes hc).bind (hv.writes hd)

theorem forM {α : Type} {w : α → Writer Unit} {c : α → Prop} {bytes : α → List UInt8}
    (h : ∀ a, Leaves (w a) (c a) (bytes a)) (l : List α) :
    Leaves (l.forM w) (∀ a ∈ l, c a) (l.flatMap bytes) := by
  induction l with
  | nil => exact (put []).congr (by simp) rfl
  | cons a l ih => exact ((h a).bind ih).congr List.forall_mem_cons.symm rfl

/-- Values that are written without fail. -/
theorem forM_put {α : Type} (bytes : α → List UInt8) (l : List α) :
    Leaves (l.forM fun a => Writer.put (bytes a)) True (l.flatMap bytes) :=
  (forM (fun a => put (bytes a)) l).of_true fun _ _ => trivial

end Leaves

namespace Wire

theorem leaves_len (n : Nat) (what : String) :
    Leaves (writeLen n what) (n < 2 ^ 31) (Layout.count n) := by
  unfold writeLen
  split_ifs with h
  · exact (Leaves.put _).congr (iff_of_true trivial h) rfl
  · exact (Leaves.fail _ _).congr (iff_of_false id h) rfl

theorem leaves_utf (s : String) :
    Leaves (writeUtf s) ((Utf8.encode s).length < 2 ^ 16) (Layout.text s) := by
  unfold writeUtf
  dsimp only
  split_ifs with h
  · exact ((Leaves.put _).bind (.put _)).congr (iff_of_true ⟨trivial, trivial⟩ h) rfl
  · exact (Leaves.fail _ _).congr (iff_of_false id h) rfl

theorem leaves_typeName (type : DataType) :
    Leaves (writeUtf type.name) True (Layout.text type.name) :=
  (leaves_utf type.name).of_true type.length_name_lt

end Wire

/-- The lengths of the shape fit their fields. -/
def Shape.Fits (s : Shape) : Prop :=
  s.dims.length < 2 ^ 31 ∧ (Utf16.encode s.layout).length < 2 ^ 31

theorem Shape.Storable.fits {s : Shape} (h : s.Storable) : s.Fits :=
  ⟨Nat.lt_of_le_of_lt h.rank_le (by decide), Nat.lt_of_le_of_lt h.layout_le (by decide)⟩

theorem Shape.fits_pair (rows cols : Nat) : (ofSizes [rows, cols]).Fits :=
  ⟨show 2 < 2 ^ 31 by decide, show (Utf16.encode "").length < 2 ^ 31 by decide⟩

theorem Shape.leaves (s : Shape) : Leaves s.write s.Fits (Layout.shape s) := by
  unfold write
  refine ((Wire.leaves_len _ _).bind ((Leaves.forM_put Layout.int64 s.dims).bind
    ((Wire.leaves_len _ _).bind (Leaves.forM_put Layout.uint16 _)))).congr ?_ ?_
  · simp only [true_and, and_true, Fits]
  · simp only [Layout.shape, List.append_assoc]

theorem Shape.leaves_all (l : List Shape) :
    Leaves (writeAll l) (l.length < 2 ^ 31 ∧ ∀ s ∈ l, s.Fits) (Layout.shapes l) :=
  (Wire.leaves_len l.length _).bind (Leaves.forM leaves l)

theorem Shape.AllStorable.fits {l : List Shape} (h : AllStorable l) :
    l.length < 2 ^ 31 ∧ ∀ s ∈ l, s.Fits :=
  ⟨Nat.lt_of_le_of_lt h.1 (by decide), fun s hs => (h.2 s hs).fits⟩

theorem Parameter.leaves {name : String} {matrix : Tensor} {type : DataType}
    (he : matrix.elementType = .storable type) : Leaves (write name matrix)
      ((Utf8.encode name).length < 2 ^ 16 ∧ (Shape.ofSizes matrix.dims).Fits)
      (Layout.parameter name type.name (Shape.ofSizes matrix.dims) matrix.data) := by
  unfold write
  simp only [he, ElementType.dataType?]
  refine ((Leaves.put _).bind ((Leaves.put _).bind ((Wire.leaves_utf name).bind
    ((Wire.leaves_typeName type).bind ((Shape.ofSizes matrix.dims).leaves.bind
      ((Leaves.put _).bind (.put matrix.data))))))).congr ?_ ?_
  · simp only [true_and, and_true]
  · simp only [Layout.parameter, List.append_assoc]
    rfl

namespace Image

variable {α : Type} [Item α]

/-- The bytes of an image whose matrix has cells of a type. -/
def layout (image : Image α) (type : DataType) : List UInt8 :=
  [4] ++ Layout.shapes image.inputShapes ++
    Layout.body (if image.sparseGrad then 1 else 0) image.dataType.name
      (image.entries.map fun e => (Item.encode e.1, e.2)) ++
    Layout.parameter parameterName type.name (Shape.ofSizes image.matrix.dims) image.matrix.data

/-- All lengths fit their fields. -/
structure Fits (image : Image α) : Prop where
  shapes_lt : image.inputShapes.length < 2 ^ 31
  shapes : ∀ s ∈ image.inputShapes, s.Fits
  count_lt : image.entries.length < 2 ^ 31
  items : ∀ e ∈ image.entries, (Item.encode e.1).length < 2 ^ 31
  matrix : (Shape.ofSizes image.matrix.dims).Fits

theorem leaves_entry (e : α × Slot) : Leaves (writeEntry e) ((Item.encode e.1).length < 2 ^ 31)
    (Layout.entry (Item.encode e.1) e.2) := by
  unfold writeEntry
  refine ((Wire.leaves_len _ _).bind ((Leaves.put _).bind (.put _))).congr ?_ ?_
  · simp only [and_true]
  · simp only [Layout.entry, List.append_assoc]
    rfl

theorem leaves {image : Image α} {type : DataType}
    (he : image.matrix.elementType = .storable type) :
    Leaves image.write image.Fits (image.layout type) := by
  have hname : (Utf8.encode parameterName).length < 2 ^ 16 := by decide
  unfold write
  refine ((Leaves.put _).bind ((Shape.leaves_all image.inputShapes).bind
    ((Leaves.put _).bind ((Wire.leaves_typeName image.dataType).bind
      ((Wire.leaves_len image.entries.length _).bind ((Leaves.forM leaves_entry image.entries).bind
        (Parameter.leaves he))))))).congr ?_ ?_
  · constructor
    · rintro ⟨-, ⟨hl, hs⟩, -, -, hn, hi, -, hm⟩
      exact ⟨hl, hs, hn, hi, hm⟩
    · rintro ⟨hl, hs, hn, hi, hm⟩
      exact ⟨trivial, ⟨hl, hs⟩, trivial, trivial, hn, hi, hname, hm⟩
  · simp only [layout, Layout.body, List.append_assoc, List.length_map, List.flatMap_map]
    rfl

end Image
end VectorTable
