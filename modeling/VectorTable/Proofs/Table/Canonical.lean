import VectorTable.Proofs.Limits
import VectorTable.Proofs.Migration
import VectorTable.Proofs.Table.RoundTrip

/-! The one form in which tables are saved. Files say the same in many ways: in four
versions, with any byte for a flag that is set, with names in any mixture of cases, with
entries in any order. A table that was restored from any of them is saved in canonical
form, and what is restored from that form is the table again, so that the next save
leaves the same bytes. -/
namespace VectorTable

variable {α : Type} [Item α]

namespace Layout

/-- What a layout of the fourth version may leave open is as the writer has it. -/
structure Canonical (body : Body α) (m : Matrix) : Prop where
  sparseGrad : body.sparseGrad = 0 ∨ body.sparseGrad = 1
  typeName : lowerAscii body.typeName.string = body.typeName.string
  ascending : body.entries.Pairwise fun a b => a.slot < b.slot
  name : m.name.string = parameterName
  matrixTypeName : lowerAscii m.typeName.string = m.typeName.string
  axes : m.axes = ""

theorem TypeName.string_eq {t : TypeName} (h : lowerAscii t.string = t.string) :
    t.string = t.type.name := by
  rw [← h, t.names]

end Layout

theorem Header.items_of_read [LawfulItem α] {source after : Source} {header : Header α}
    {entries : List (α × Slot)} (h : read source = .ok (header, after))
    (he : header.entries = some entries) :
    ∀ e ∈ entries, (Item.encode e.1).length ≤ Wire.maxBytes := by
  have hpairs : ∀ l : List (Layout.Entry α), ∀ e ∈ l.map Layout.Entry.pair,
      (Item.encode e.1).length ≤ Wire.maxBytes := by
    intro l e hm
    obtain ⟨entry, -, rfl⟩ := List.mem_map.mp hm
    rw [Layout.Entry.pair, entry.encode_item]
    exact entry.code_le
  obtain ⟨head, -, rfl⟩ := exact_read.layout h
  cases head with
  | one => cases he
  | two => cases he
  | three => cases he; exact hpairs _
  | four => cases he; exact hpairs _

variable [DecidableEq α]

namespace Persisted

/-- The items of the index are those of the file. -/
theorem mem_of_indexOf {entries : List (α × Slot)} {retrofitted : Bool} {numItems : Nat}
    {i : Index α} (h : indexOf (some entries) retrofitted numItems = .ok (some i)) :
    ∀ e ∈ i.entries, ∃ e' ∈ entries, e'.1 = e.1 := by
  intro e he
  cases retrofitted with
  | false =>
    obtain ⟨j, hj, hji⟩ := indexOf_kept.mp h
    cases hji
    exact ⟨e, (Index.perm_of_ofEntries hj).mem_iff.mp he, rfl⟩
  | true =>
    obtain ⟨-, j, hj, hji⟩ := indexOf_shifted.mp h
    cases hji
    obtain ⟨e', he', rfl⟩ := List.mem_map.mp ((Index.perm_of_ofEntries hj).mem_iff.mp he)
    exact ⟨e', he', rfl⟩

theorem items_of_read [LawfulItem α] {source rest : Source} {p : Persisted α} {i : Index α}
    (h : (read source).result = .ok (p, rest)) (hi : p.index = some i) :
    ∀ e ∈ i.entries, (Item.encode e.1).length ≤ Wire.maxBytes := by
  obtain ⟨header, stored, ⟨after, name, hh, -⟩, ha⟩ := read_eq_ok.mp h
  obtain ⟨_, _, _, _, _, _, index, -, -, -, -, hx, rfl⟩ := assemble_eq_ok.mp ha
  dsimp only at hi
  subst hi
  cases he : header.entries with
  | none =>
    rw [he] at hx
    cases hx
  | some entries =>
    rw [he] at hx
    intro e hm
    obtain ⟨e', he', heq⟩ := mem_of_indexOf hx e hm
    exact heq ▸ Header.items_of_read hh he e' he'

theorem contiguous_of_read {source rest : Source} {p : Persisted α}
    (h : (read source).result = .ok (p, rest)) : p.matrix.contiguous = true := by
  obtain ⟨header, stored, ⟨after, name, -, hm⟩, ha⟩ := read_eq_ok.mp h
  obtain ⟨m, -, hm⟩ := Parameter.exact_read.layout hm
  obtain ⟨-, rfl⟩ := Prod.mk.inj hm
  obtain ⟨_, _, matrix, _, _, _, _, -, hmigrate, -, -, -, rfl⟩ := assemble_eq_ok.mp ha
  cases hn : Migration.needsRetrofit header.version header.zeroReserved with
  | false =>
    rw [Migration.migrate_kept hn] at hmigrate
    cases hmigrate
    rfl
  | true =>
    obtain ⟨hz, -⟩ := (Migration.migrate_retrofitted hn).mp hmigrate
    obtain ⟨_, _, _, -, -, -, hp⟩ := Migration.prependZeroRow_eq_ok hz
    exact hp.contiguous_eq

end Persisted

namespace Table

variable [LawfulItem α]

theorem items_of_restore {source rest : Source} {fallthrough : Fallthrough α} {t : Table α}
    (h : (restore source fallthrough).result = .ok (t, rest)) :
    ∀ e ∈ t.entries, (Item.encode e.1).length ≤ Wire.maxBytes := by
  obtain ⟨p, dataType, hp, -, ha⟩ := restore_eq_ok.mp h
  obtain ⟨index, _, hi, -, rfl⟩ := applied_eq_ok.mp ha
  unfold indexAfter at hi
  cases hx : p.index with
  | some i =>
    rw [hx] at hi
    cases hi
    exact Persisted.items_of_read hp hx
  | none =>
    rw [hx] at hi
    have hnil : index.entries = [] := (Index.perm_of_ofEntries hi).eq_nil
    intro e he
    rw [entries, hnil] at he
    cases he

omit [LawfulItem α] in
theorem contiguous_of_restore {source rest : Source} {fallthrough : Fallthrough α} {t : Table α}
    (h : (restore source fallthrough).result = .ok (t, rest)) : t.matrix.contiguous = true := by
  obtain ⟨p, dataType, hp, -, ha⟩ := restore_eq_ok.mp h
  obtain ⟨index, _, -, -, rfl⟩ := applied_eq_ok.mp ha
  exact Persisted.contiguous_of_read hp

section Saved

variable {t : Table α} {type : DataType}

/-- What a table leaves in a file is read as the parts of the table. -/
theorem Coherent.read_layout (h : t.Coherent)
    (hi : ∀ e ∈ t.entries, (Item.encode e.1).length ≤ Wire.maxBytes)
    (hm : t.matrix.Storable type t.numItems t.width) (hr : t.numItems < 2 ^ 63)
    (hc : t.width < 2 ^ 63) (hb : t.matrix.data.length < 2 ^ 63) (rest : List UInt8)
    (ending : Ending) :
    (Persisted.read ⟨t.image.layout type ++ rest, ending⟩).result =
      .ok (⟨currentVersion, some t.inputShapes, some t.sparseGrad, some t.dataType, some t.index,
        t.matrix.rowMajor, t.numItems, t.width, false⟩, ⟨rest, ending⟩) := by
  obtain ⟨-, -, hindex⟩ := Index.ofEntries_eq_ok.mp h.index.ofEntries_entries
  rw [hindex]
  exact Persisted.read_layout (h.image_storable hi) hm h.index.numItems_pos hr hc hb
    h.index.assigned rest ending

theorem Coherent.restore_layout (h : t.Coherent)
    (hi : ∀ e ∈ t.entries, (Item.encode e.1).length ≤ Wire.maxBytes)
    (hm : t.matrix.Storable type t.numItems t.width) (hr : t.numItems < 2 ^ 63)
    (hc : t.width < 2 ^ 63) (hb : t.matrix.data.length < 2 ^ 63) (fallthrough : Fallthrough α)
    (rest : List UInt8) (ending : Ending) :
    (restore ⟨t.image.layout type ++ rest, ending⟩ fallthrough).result =
      .ok ({ t with fallthrough, matrix := t.matrix.rowMajor }, ⟨rest, ending⟩) :=
  restore_eq_ok.mpr ⟨_, type, h.read_layout hi hm hr hc hb rest ending,
    matrixDataType_eq_ok.mpr hm.elementType_eq,
    applied_eq_ok.mpr ⟨t.index, t.dataType, rfl, rfl, rfl⟩⟩

end Saved

section Canonical

variable {shapes : List Shape} {hs : Shape.AllStorable shapes} {body : Layout.Body α}
  {m : Layout.Matrix}

omit [LawfulItem α] in
/-- The table that is restored from a layout of the fourth version. -/
theorem eq_of_restore_four {fallthrough : Fallthrough α} {t : Table α} {ending : Ending}
    {rest : Source} (ha : body.entries.Pairwise fun a b => a.slot < b.slot)
    (h : (restore ⟨(Layout.Head.four shapes hs body).bytes ++ m.bytes, ending⟩ fallthrough).result =
      .ok (t, rest)) :
    t = ⟨⟨body.entries.map Layout.Entry.pair, m.rows⟩, m.tensor, m.cols, body.typeName.type,
      body.sparseGrad != 0, fallthrough, shapes⟩ := by
  obtain ⟨p, dataType, hp, -, happly⟩ := restore_eq_ok.mp h
  obtain ⟨header, stored, hholds, hassemble⟩ := Persisted.read_eq_ok.mp hp
  have hparts := Persisted.exact_parts.reads (Layout.Head.four shapes hs body, m) [] ending
  rw [List.append_nil] at hparts
  obtain ⟨after, hheader, hmatrix⟩ := Persisted.parts_eq_ok.mp hparts
  obtain ⟨rfl, rfl, -⟩ := hholds.unique ⟨after, _, hheader, hmatrix⟩
  obtain ⟨-, _, hindex, rfl⟩ := (Persisted.assemble_kept rfl rfl).mp hassemble
  obtain ⟨i, hi, rfl⟩ := Persisted.indexOf_kept.mp hindex
  obtain ⟨_, _, hafter, htype, rfl⟩ := applied_eq_ok.mp happly
  cases hafter
  cases htype
  have hsorted : (body.entries.map Layout.Entry.pair).Pairwise fun a b => a.2 ≤ b.2 :=
    List.pairwise_map.mpr (ha.imp UInt32.le_of_lt)
  rw [Index.entries_of_ofEntries hi hsorted]
  rfl

omit [DecidableEq α] in
/-- A canonical layout is the one that its table is saved in. -/
theorem layout_of_canonical {fallthrough : Fallthrough α} (h : Layout.Canonical body m) :
    (⟨⟨body.entries.map Layout.Entry.pair, m.rows⟩, m.tensor, m.cols, body.typeName.type,
      body.sparseGrad != 0, fallthrough, shapes⟩ : Table α).image.layout m.typeName.type =
      (Layout.Head.four shapes hs body).bytes ++ m.bytes := by
  have hflag : (if body.sparseGrad != 0 then 1 else 0) = body.sparseGrad := by
    rcases h.sparseGrad with h0 | h0 <;> rw [h0] <;> rfl
  have hentries : (body.entries.map Layout.Entry.pair).map (fun e => (Item.encode e.1, e.2)) =
      body.entries.map fun e => (e.code, e.slot) := by
    simp [Layout.Entry.pair, Layout.Entry.encode_item]
  have hshape : Shape.ofSizes [m.rows, m.cols] = m.shape := by
    rw [Layout.Matrix.shape, h.axes]
    rfl
  show [4] ++ Layout.shapes shapes ++
      Layout.body (if body.sparseGrad != 0 then 1 else 0) body.typeName.type.name
        ((body.entries.map Layout.Entry.pair).map fun e => (Item.encode e.1, e.2)) ++
      Layout.parameter parameterName m.typeName.type.name (Shape.ofSizes [m.rows, m.cols]) m.data = _
  rw [hflag, hentries, hshape, ← h.name, ← Layout.TypeName.string_eq h.typeName,
    ← Layout.TypeName.string_eq h.matrixTypeName]
  rfl

end Canonical

/-- A table that was restored, from a file of whatever version and form, is saved in a file
of the fourth version that needs no change, and is restored from it as it was, so that it is
saved in the same bytes again. A file of the fourth version that is in canonical form is
itself the file that its table is saved in. -/
theorem save_of_restore {source rest : Source} {fallthrough : Fallthrough α} {t : Table α}
    (h : (restore source fallthrough).result = .ok (t, rest)) (hr : t.numItems < 2 ^ 63)
    (hc : t.width < 2 ^ 63) (hb : t.matrix.data.length < 2 ^ 63) :
    ∃ bytes, (t.save none).result = .ok bytes ∧
      (∃ p : Persisted α, (Persisted.read ⟨bytes, .endOfData⟩).result = .ok (p, ⟨[], .endOfData⟩) ∧
        p.version = 4 ∧ p.retrofitted = false) ∧
      (∀ policy, ∃ t' : Table α,
        (restore ⟨bytes, .endOfData⟩ policy).result = .ok (t', ⟨[], .endOfData⟩) ∧
        t' = { t with fallthrough := policy } ∧ (t'.save none).result = .ok bytes) ∧
      ∀ shapes hs (body : Layout.Body α) m, Layout.Canonical body m →
        source.bytes = (Layout.Head.four shapes hs body).bytes ++ m.bytes → bytes = source.bytes := by
  have hcoh := coherent_of_restore h
  have hi := items_of_restore h
  obtain ⟨type, hm⟩ := hcoh.matrix
  have hrow : t.matrix.rowMajor = t.matrix := Tensor.rowMajor_eq (contiguous_of_restore h)
  have hread := hcoh.read_layout hi hm hr hc hb [] .endOfData
  have hsave : (t.save none).result = .ok (t.image.layout type) :=
    save_iff_writes.mpr (Persisted.holds_of_image (hcoh.image_storable hi) hm hr hc hb).1
  rw [List.append_nil] at hread
  refine ⟨t.image.layout type, hsave, ⟨_, hread, rfl, rfl⟩, ?_, ?_⟩
  · intro policy
    have hrestore := hcoh.restore_layout hi hm hr hc hb policy [] .endOfData
    rw [List.append_nil, hrow] at hrestore
    exact ⟨_, hrestore, rfl, hsave⟩
  · intro shapes hs body m hcanonical hsource
    obtain ⟨bytes, ending⟩ := source
    dsimp only at hsource
    subst hsource
    obtain rfl := eq_of_restore_four hcanonical.ascending h
    have htype : m.typeName.type = type := ElementType.storable.inj hm.elementType_eq
    rw [← htype]
    exact layout_of_canonical hcanonical

/-- The table of a file of the third version with item 7 in slot 0. -/
def movedItem : Table UInt32 :=
  ⟨⟨[(7, 1)], 2⟩, ⟨.storable .uint8, [2, 2], [0, 0, 5, 6], true, rfl⟩, 2, .uint8, true, .none, []⟩

theorem restore_movedItem :
    (restore (Persisted.oneItem 0) .none).result = .ok (movedItem, ⟨[], .endOfData⟩) := by
  cbv

/-- The same table in canonical form. -/
def movedBody : Layout.Body UInt32 where
  sparseGrad := 1
  typeName := ⟨⟨"uint8", by decide⟩, .uint8, DataType.lowerAscii_name .uint8⟩
  entries := [⟨[0, 0, 0, 7], 7, 1, by decide, rfl, by decide⟩]
  count_lt := by decide

def movedMatrix : Layout.Matrix where
  name := ⟨parameterName, by decide⟩
  typeName := ⟨⟨"uint8", by decide⟩, .uint8, DataType.lowerAscii_name .uint8⟩
  rows := 2
  cols := 2
  axes := ""
  data := [0, 0, 5, 6]
  rows_lt := by decide
  cols_lt := by decide
  axes_le := by decide
  length_data := rfl
  length_lt := by decide

def movedFile : Source where
  bytes := (Layout.Head.four [] ⟨by decide, by simp⟩ movedBody).bytes ++ movedMatrix.bytes

theorem canonical_movedFile : Layout.Canonical movedBody movedMatrix :=
  ⟨.inr rfl, DataType.lowerAscii_name .uint8, List.pairwise_singleton _ _, rfl,
    DataType.lowerAscii_name .uint8, rfl⟩

theorem restore_movedFile :
    (restore movedFile .none).result = .ok (movedItem, ⟨[], .endOfData⟩) := by
  cbv

/-- The old file is restored and saved as the canonical one, which stays as it is. -/
theorem save_movedItem :
    (restore (Persisted.oneItem 0) .none).result = .ok (movedItem, ⟨[], .endOfData⟩) ∧
    (movedItem.save none).result = .ok movedFile.bytes ∧
    ∃ t' : Table UInt32,
      (restore movedFile .defaultRow).result = .ok (t', ⟨[], .endOfData⟩) ∧
      t' = { movedItem with fallthrough := .defaultRow } ∧
      (t'.save none).result = .ok movedFile.bytes := by
  obtain ⟨bytes, hs, -, hrestore, -⟩ :=
    save_of_restore restore_movedItem (by decide) (by decide) (by decide)
  obtain ⟨bytes', hs', -, -, hcanonical⟩ :=
    save_of_restore restore_movedFile (by decide) (by decide) (by decide)
  have hfile := hcanonical _ _ _ _ canonical_movedFile rfl
  rw [hs] at hs'
  obtain rfl := Except.ok.inj hs'
  subst hfile
  exact ⟨restore_movedItem, hs, hrestore .defaultRow⟩

end Table
end VectorTable
