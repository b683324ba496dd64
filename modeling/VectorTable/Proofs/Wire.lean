import VectorTable.Wire
import VectorTable.Proofs.Codec
import VectorTable.Proofs.Item

/-! Every primitive of the format carries its value: words of each width, flags,
counts below `2 ^ 31`, byte strings up to the limit, and texts whose code fits a
two-byte length. -/
namespace VectorTable.Wire

theorem reads_word {α : Type} (width : Nat) (ofNat : Nat → α) {n : Nat} (h : n < 256 ^ width)
    (what : String) :
    Reads (Reader.exactly width what >>= fun b => pure (ofNat (ofBigEndian b)))
      (bigEndian width n) (ofNat n) := by
  have hp : Reads (pure (ofNat (ofBigEndian (bigEndian width n)))) [] (ofNat n) := by
    rw [ofBigEndian_bigEndian_of_lt h]
    exact Reads.pure _
  have hb := Reads.exactly (length_bigEndian width n) what
  rw [← List.append_nil (bigEndian width n)]
  exact Reads.bind hb hp

theorem reads_u8 (v : UInt8) (what : String) : Reads (readU8 what) [v] v := by
  have hr := reads_word 1 UInt8.ofNat v.toNat_lt what
  have hv : bigEndian 1 v.toNat = [v] := by simp [bigEndian, littleEndian]
  rwa [UInt8.ofNat_toNat, hv] at hr

theorem reads_bool (v : UInt8) (what : String) : Reads (readBool what) [v] (v != 0) :=
  (reads_u8 v what).bind (Reads.pure (v != 0))

theorem carries_u8 (v : UInt8) (what : String) : Carries (writeU8 v) (readU8 what) v :=
  ⟨[v], Writes.put [v], reads_u8 v what⟩

theorem carries_bool (v : Bool) (what : String) : Carries (writeBool v) (readBool what) v := by
  refine (carries_u8 (if v then 1 else 0) what).map ?_
  cases v <;> exact Reads.pure _

theorem carries_u16 (v : UInt16) (what : String) : Carries (writeU16 v) (readU16 what) v := by
  have hr := reads_word 2 UInt16.ofNat v.toNat_lt what
  rw [UInt16.ofNat_toNat] at hr
  exact ⟨_, Writes.put _, hr⟩

theorem carries_i32 (v : Int32) (what : String) : Carries (writeI32 v) (readI32 what) v := by
  have hr := reads_word 4 Int32.ofNat v.toUInt32.toNat_lt what
  rw [int32_ofNat_toNat] at hr
  exact ⟨_, Writes.put _, hr⟩

theorem carries_i64 (v : Int64) (what : String) : Carries (writeI64 v) (readI64 what) v := by
  have hr := reads_word 8 Int64.ofNat v.toUInt64.toNat_lt what
  rw [int64_ofNat_toNat] at hr
  exact ⟨_, Writes.put _, hr⟩

theorem carries_len {n : Nat} (h : n < 2 ^ 31) (what what' : String) :
    Carries (writeLen n what) (readLen what') n := by
  rw [writeLen, if_pos h]
  refine (carries_i32 (Int32.ofNat n) what').map ?_
  have hn : ¬ Int32.ofNat n < 0 := Int32.not_lt.mpr (Int32.zero_le_ofNat_of_lt h)
  rw [if_neg hn, Int32.toNatClampNeg_ofNat_of_lt h]
  exact Reads.pure n

theorem carries_bytes {bytes : List UInt8} (h : bytes.length ≤ maxBytes) (what : String) :
    Carries (Writer.put bytes) (readBytes bytes.length what) bytes := by
  rw [readBytes, if_neg (Nat.not_lt.mpr h)]
  exact ⟨bytes, Writes.put bytes, Reads.exactly rfl what⟩

theorem carries_utf {s : String} (h : (Utf8.encode s).length < 2 ^ 16) (what : String) :
    Carries (writeUtf s) (readUtf what) s := by
  have hl : (UInt16.ofNat (Utf8.encode s).length).toNat = (Utf8.encode s).length :=
    UInt16.toNat_ofNat_of_lt' h
  unfold writeUtf readUtf
  dsimp only
  rw [if_pos h]
  refine (carries_u16 (UInt16.ofNat (Utf8.encode s).length) what).bind ?_
  rw [hl]
  refine (carries_bytes (by simp only [maxBytes]; omega) what).map ?_
  rw [Utf8.decode_encode]
  exact Reads.pure s

end VectorTable.Wire
