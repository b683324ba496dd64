import VectorTable.Item
import VectorTable.Proofs.Unicode

/-! The byte forms of items. Decoding undoes encoding, and an item has one byte
form only: `LawfulItem` says both, and all five types of items are lawful. -/
namespace VectorTable

theorem bigEndian_ofBigEndian (bytes : List UInt8) :
    bigEndian bytes.length (ofBigEndian bytes) = bytes := by
  have h := littleEndian_ofLittleEndian bytes.reverse
  rw [List.length_reverse] at h
  rw [bigEndian, ofBigEndian, h, List.reverse_reverse]

theorem ofBigEndian_lt (bytes : List UInt8) : ofBigEndian bytes < 256 ^ bytes.length := by
  simpa [ofBigEndian] using ofLittleEndian_lt bytes.reverse

theorem ofBigEndian_bigEndian_of_lt {width n : Nat} (h : n < 256 ^ width) :
    ofBigEndian (bigEndian width n) = n := by
  rw [ofBigEndian_bigEndian, Nat.mod_eq_of_lt h]

/-- Items that are got back from their bytes, and bytes that are got back from
the items that they stand for. -/
class LawfulItem (α : Type) [Item α] : Prop where
  decode_encode : ∀ x : α, Item.decode (Item.encode x) = .ok x
  encode_of_decode : ∀ {bytes : List UInt8} {x : α}, Item.decode bytes = .ok x →
    Item.encode x = bytes

namespace Item

variable {α : Type} {width : Nat} {typeName : String} {ofNat : Nat → α}

theorem decodeWord_bigEndian (toNat : α → Nat) {x : α} (h : toNat x < 256 ^ width)
    (hx : ofNat (toNat x) = x) :
    decodeWord width typeName ofNat (bigEndian width (toNat x)) = .ok x := by
  rw [decodeWord, if_pos (length_bigEndian _ _), ofBigEndian_bigEndian_of_lt h, hx]

theorem bigEndian_of_decodeWord (toNat : α → Nat) {bytes : List UInt8} {x : α}
    (hn : ∀ n < 256 ^ width, toNat (ofNat n) = n)
    (h : decodeWord width typeName ofNat bytes = .ok x) : bigEndian width (toNat x) = bytes := by
  unfold decodeWord at h
  split_ifs at h with hw
  cases h
  rw [hn _ (hw ▸ ofBigEndian_lt bytes), ← hw, bigEndian_ofBigEndian]

end Item

instance : LawfulItem String where
  decode_encode s := by
    show (Utf8.decode (Utf8.encode s)).mapError _ = _
    rw [Utf8.decode_encode]
    rfl
  encode_of_decode {bytes s} h := by
    have h : (Utf8.decode bytes).mapError ItemFault.notUtf8 = .ok s := h
    cases hd : Utf8.decode bytes with
    | error e => simp [hd, Except.mapError] at h
    | ok t =>
      simp only [hd, Except.mapError, Except.ok.injEq] at h
      exact h ▸ Utf8.encode_of_decode hd

instance : LawfulItem UInt32 where
  decode_encode n := Item.decodeWord_bigEndian UInt32.toNat n.toNat_lt UInt32.ofNat_toNat
  encode_of_decode h :=
    Item.bigEndian_of_decodeWord UInt32.toNat (fun _ hn => UInt32.toNat_ofNat_of_lt' hn) h

instance : LawfulItem UInt64 where
  decode_encode n := Item.decodeWord_bigEndian UInt64.toNat n.toNat_lt UInt64.ofNat_toNat
  encode_of_decode h :=
    Item.bigEndian_of_decodeWord UInt64.toNat (fun _ hn => UInt64.toNat_ofNat_of_lt' hn) h

theorem Item.length_encode_uint64 (n : UInt64) : (Item.encode n).length = 8 := length_bigEndian 8 _

theorem int32_ofNat_toNat (n : Int32) : Int32.ofNat n.toUInt32.toNat = n := by
  apply Int32.toBitVec_inj.mp
  simp

theorem int64_ofNat_toNat (n : Int64) : Int64.ofNat n.toUInt64.toNat = n := by
  apply Int64.toBitVec_inj.mp
  simp

instance : LawfulItem Int32 where
  decode_encode n := Item.decodeWord_bigEndian (fun n : Int32 => n.toUInt32.toNat)
    n.toUInt32.toNat_lt (int32_ofNat_toNat n)
  encode_of_decode h := Item.bigEndian_of_decodeWord (fun n : Int32 => n.toUInt32.toNat)
    (fun _ hn => UInt32.toNat_ofNat_of_lt' hn) h

instance : LawfulItem Int64 where
  decode_encode n := Item.decodeWord_bigEndian (fun n : Int64 => n.toUInt64.toNat)
    n.toUInt64.toNat_lt (int64_ofNat_toNat n)
  encode_of_decode h := Item.bigEndian_of_decodeWord (fun n : Int64 => n.toUInt64.toNat)
    (fun _ hn => UInt64.toNat_ofNat_of_lt' hn) h

end VectorTable
