import VectorTable.Text.Utf8
import VectorTable.Text.Utf16
import Mathlib

/-! UTF-8 and UTF-16 are codes in the strict sense: decoding undoes encoding,
and whatever decodes at all is the code of its text, so every text has one code.
For UTF-8 the forms of a scalar value are listed first, one constructor for each
length, and both directions go through that list. -/
namespace VectorTable

theorem toNat_char {v : Nat} (h : v < 0xD800 ∨ 0xDFFF < v ∧ v < 0x110000) :
    (Char.ofNat v).toNat = v := by
  have hv : v.isValidChar := h
  rw [Char.ofNat, dif_pos hv]
  rfl

namespace Utf8

theorem toNat_byte {n : Nat} (h : n < 256) : (UInt8.ofNat n).toNat = n :=
  UInt8.toNat_ofNat_of_lt' h

theorem isTail_iff (b : UInt8) : isTail b = true ↔ 0x80 ≤ b.toNat ∧ b.toNat ≤ 0xBF := by
  simp [isTail, UInt8.le_iff_toNat_le]

theorem secondOfThree_iff (a b : UInt8) : secondOfThree a b = true ↔
    (0x80 ≤ b.toNat ∧ b.toNat ≤ 0xBF) ∧ (a.toNat = 0xE0 → 0xA0 ≤ b.toNat) ∧
      (a.toNat = 0xED → b.toNat ≤ 0x9F) := by
  have h0 : a = 0xE0 ↔ a.toNat = 0xE0 := UInt8.toNat_inj.symm
  have hd : a = 0xED ↔ a.toNat = 0xED := UInt8.toNat_inj.symm
  unfold secondOfThree
  split_ifs <;> simp_all [isTail_iff, UInt8.le_iff_toNat_le] <;> omega

theorem secondOfFour_iff (a b : UInt8) : secondOfFour a b = true ↔
    (0x80 ≤ b.toNat ∧ b.toNat ≤ 0xBF) ∧ (a.toNat = 0xF0 → 0x90 ≤ b.toNat) ∧
      (a.toNat = 0xF4 → b.toNat ≤ 0x8F) := by
  have h0 : a = 0xF0 ↔ a.toNat = 0xF0 := UInt8.toNat_inj.symm
  have hd : a = 0xF4 ↔ a.toNat = 0xF4 := UInt8.toNat_inj.symm
  unfold secondOfFour
  split_ifs <;> simp_all [isTail_iff, UInt8.le_iff_toNat_le] <;> omega

/-- The shortest form of a scalar value, by the number of its bytes. -/
inductive Form : Nat → List UInt8 → Prop where
  | one {v : Nat} {a : UInt8} : a.toNat = v → v < 0x80 → Form v [a]
  | two {v : Nat} {a b : UInt8} : a.toNat = 0xC0 + v / 64 → b.toNat = 0x80 + v % 64 →
      0x80 ≤ v → v < 0x800 → Form v [a, b]
  | three {v : Nat} {a b c : UInt8} : a.toNat = 0xE0 + v / 4096 → b.toNat = 0x80 + v / 64 % 64 →
      c.toNat = 0x80 + v % 64 → 0x800 ≤ v → v < 0x10000 → (v < 0xD800 ∨ 0xDFFF < v) →
      Form v [a, b, c]
  | four {v : Nat} {a b c d : UInt8} : a.toNat = 0xF0 + v / 262144 →
      b.toNat = 0x80 + v / 4096 % 64 → c.toNat = 0x80 + v / 64 % 64 → d.toNat = 0x80 + v % 64 →
      0x10000 ≤ v → v < 0x110000 → Form v [a, b, c, d]

theorem encodeChar_form (c : Char) : Form c.toNat (encodeChar c) := by
  have hv : c.toNat < 0xD800 ∨ 0xDFFF < c.toNat ∧ c.toNat < 0x110000 := c.valid
  unfold encodeChar
  dsimp only
  split_ifs with h1 h2 h3
  · exact .one (toNat_byte (by omega)) h1
  · exact .two (toNat_byte (by omega)) (toNat_byte (by omega))
      (by omega) h2
  · exact .three (toNat_byte (by omega)) (toNat_byte (by omega))
      (toNat_byte (by omega)) (by omega) h3 (by omega)
  · exact .four (toNat_byte (by omega)) (toNat_byte (by omega))
      (toNat_byte (by omega)) (toNat_byte (by omega)) (by omega)
      (by omega)

theorem Form.unique {v : Nat} {l l' : List UInt8} (h : Form v l) (h' : Form v l') : l = l' := by
  cases h <;> cases h' <;> first
    | omega
    | simp only [List.cons.injEq, and_true, ← UInt8.toNat_inj]; omega

theorem decodeChar_of_form {v : Nat} {a : UInt8} {tail : List UInt8} (h : Form v (a :: tail))
    (rest : List UInt8) : decodeChar a (tail ++ rest) = .ok (Char.ofNat v, tail.length) := by
  unfold decodeChar
  simp only [UInt8.lt_iff_toNat_lt, UInt8.le_iff_toNat_le, UInt8.reduceToNat, Bool.and_eq_true,
    decide_eq_true_eq]
  cases h with
  | one ha hv =>
    rw [if_pos (by omega), ha]
    rfl
  | @two _ b ha hb h1 h2 =>
    have ht : isTail b = true := (isTail_iff b).mpr (by omega)
    rw [if_neg (by omega), if_pos (by omega)]
    simp only [List.cons_append, ht, if_true, payload, ha, hb]
    rw [show (0xC0 + v / 64) % 32 * 64 + (0x80 + v % 64) % 64 = v by omega]
    rfl
  | @three _ b c ha hb hc h1 h2 h3 =>
    have hs : secondOfThree a b = true := (secondOfThree_iff a b).mpr (by omega)
    have ht : isTail c = true := (isTail_iff c).mpr (by omega)
    rw [if_neg (by omega), if_neg (by omega), if_pos (by omega)]
    simp only [List.cons_append, hs, ht, if_true, payload, ha, hb, hc, Bool.not_true,
      Bool.false_eq_true, if_false]
    rw [show (0xE0 + v / 4096) % 16 * 4096 + (0x80 + v / 64 % 64) % 64 * 64 +
      (0x80 + v % 64) % 64 = v by omega]
    rfl
  | @four _ b c d ha hb hc hd h1 h2 =>
    have hs : secondOfFour a b = true := (secondOfFour_iff a b).mpr (by omega)
    have ht : isTail c = true := (isTail_iff c).mpr (by omega)
    have ht' : isTail d = true := (isTail_iff d).mpr (by omega)
    rw [if_neg (by omega), if_neg (by omega), if_neg (by omega), if_pos (by omega)]
    simp only [List.cons_append, hs, ht, ht', if_true, payload, ha, hb, hc, hd, Bool.not_true,
      Bool.false_eq_true, if_false]
    rw [show (0xF0 + v / 262144) % 8 * 262144 + (0x80 + v / 4096 % 64) % 64 * 4096 +
      (0x80 + v / 64 % 64) % 64 * 64 + (0x80 + v % 64) % 64 = v by omega]
    rfl

theorem form_of_decodeChar {a : UInt8} {rest : List UInt8} {c : Char} {k : Nat}
    (h : decodeChar a rest = .ok (c, k)) :
    ∃ tail rest', rest = tail ++ rest' ∧ tail.length = k ∧ Form c.toNat (a :: tail) := by
  unfold decodeChar at h
  simp only [UInt8.lt_iff_toNat_lt, UInt8.le_iff_toNat_le, UInt8.reduceToNat, Bool.and_eq_true,
    decide_eq_true_eq] at h
  split_ifs at h with h1 h2 h3 h4
  · simp only [Except.ok.injEq, Prod.mk.injEq] at h
    obtain ⟨rfl, rfl⟩ := h
    refine ⟨[], rest, rfl, rfl, ?_⟩
    rw [toNat_char (by omega)]
    exact .one rfl h1
  · split at h
    · cases h
    next b tail =>
      split_ifs at h with hb
      simp only [Except.ok.injEq, Prod.mk.injEq] at h
      obtain ⟨rfl, rfl⟩ := h
      rw [isTail_iff] at hb
      refine ⟨[b], tail, rfl, rfl, ?_⟩
      simp only [payload]
      rw [toNat_char (by omega)]
      exact .two (by omega) (by omega) (by omega) (by omega)
  · split at h
    · cases h
    next b tail =>
      split_ifs at h with hb
      split at h
      · cases h
      next c tail =>
        split_ifs at h with hc
        simp only [Except.ok.injEq, Prod.mk.injEq] at h
        obtain ⟨rfl, rfl⟩ := h
        simp only [Bool.not_eq_true', Bool.not_eq_false] at hb
        rw [secondOfThree_iff] at hb
        rw [isTail_iff] at hc
        refine ⟨[b, c], tail, rfl, rfl, ?_⟩
        simp only [payload]
        rw [toNat_char (by omega)]
        exact .three (by omega) (by omega) (by omega) (by omega) (by omega) (by omega)
  · split at h
    · cases h
    next b tail =>
      split_ifs at h with hb
      split at h
      · cases h
      next c tail =>
        split_ifs at h with hc
        split at h
        · cases h
        next d tail =>
          split_ifs at h with hd
          simp only [Except.ok.injEq, Prod.mk.injEq] at h
          obtain ⟨rfl, rfl⟩ := h
          simp only [Bool.not_eq_true', Bool.not_eq_false] at hb hc
          rw [secondOfFour_iff] at hb
          rw [isTail_iff] at hc hd
          refine ⟨[b, c, d], tail, rfl, rfl, ?_⟩
          simp only [payload]
          rw [toNat_char (by omega)]
          exact .four (by omega) (by omega) (by omega) (by omega) (by omega) (by omega)

theorem exists_encodeChar (c : Char) : ∃ a tail, encodeChar c = a :: tail := by
  cases h : encodeChar c with
  | nil => exact absurd (h ▸ encodeChar_form c) (by rintro ⟨⟩)
  | cons a tail => exact ⟨a, tail, rfl⟩

/-- What is decoded comes behind the characters done before. -/
theorem decodeFrom_encode (pos : Nat) (done chars : List Char) :
    decodeFrom pos done (chars.flatMap encodeChar) = .ok (done.reverse ++ chars) := by
  induction chars generalizing pos done with
  | nil => simp [decodeFrom]
  | cons c chars ih =>
    obtain ⟨a, tail, hc⟩ := exists_encodeChar c
    have hd := decodeChar_of_form (hc ▸ encodeChar_form c) (chars.flatMap encodeChar)
    rw [List.flatMap_cons, hc, List.cons_append, decodeFrom, hd]
    simp only [List.drop_left, Char.ofNat_toNat]
    rw [ih]
    simp

theorem encode_of_decodeFrom {pos : Nat} {done chars : List Char} {bytes : List UInt8}
    (h : decodeFrom pos done bytes = .ok chars) :
    ∃ more, chars = done.reverse ++ more ∧ more.flatMap encodeChar = bytes := by
  fun_induction decodeFrom pos done bytes with
  | case1 pos done => exact ⟨[], by simpa using h.symm, rfl⟩
  | case2 => cases h
  | case3 pos done a rest c k hc ih =>
    obtain ⟨more, rfl, hm⟩ := ih h
    obtain ⟨tail, rest', rfl, rfl, hf⟩ := form_of_decodeChar hc
    refine ⟨c :: more, by simp, ?_⟩
    rw [List.flatMap_cons, hm, (encodeChar_form c).unique hf, List.drop_left, List.cons_append]

/-- Decoding undoes encoding. -/
theorem decode_encode (s : String) : decode (encode s) = .ok s := by
  rw [decode, encode, decodeFrom_encode]
  simp [Except.map]

/-- Every text has one encoding. -/
theorem encode_of_decode {bytes : List UInt8} {s : String} (h : decode bytes = .ok s) :
    encode s = bytes := by
  unfold decode at h
  cases hc : decodeFrom 0 [] bytes with
  | error e => simp [hc, Except.map] at h
  | ok chars =>
    obtain ⟨more, rfl, hm⟩ := encode_of_decodeFrom hc
    simp only [hc, Except.map, Except.ok.injEq] at h
    rw [← h, encode, String.toList_ofList, hm]

/-- Well-formed text: shortest forms of scalar values, one after another. -/
inductive Valid : List UInt8 → Prop where
  | nil : Valid []
  | cons {v : Nat} {form rest : List UInt8} : Form v form → Valid rest → Valid (form ++ rest)

theorem Form.scalar {v : Nat} {form : List UInt8} (h : Form v form) :
    v < 0xD800 ∨ 0xDFFF < v ∧ v < 0x110000 := by
  cases h <;> omega

theorem valid_encode (s : String) : Valid (encode s) := by
  unfold encode
  induction s.toList with
  | nil => exact .nil
  | cons c chars ih => exact .cons (encodeChar_form c) ih

/-- The bytes that decode are those of well-formed text. -/
theorem exists_decode_iff {bytes : List UInt8} : (∃ s, decode bytes = .ok s) ↔ Valid bytes := by
  constructor
  · rintro ⟨s, h⟩
    exact encode_of_decode h ▸ valid_encode s
  · intro h
    induction h with
    | nil => exact ⟨"", decode_encode ""⟩
    | @cons v form rest hf _ ih =>
      obtain ⟨s, hs⟩ := ih
      have hc : encodeChar (Char.ofNat v) = form :=
        (encodeChar_form _).unique ((toNat_char hf.scalar).symm ▸ hf)
      have he : encode (String.ofList (Char.ofNat v :: s.toList)) = form ++ rest := by
        rw [encode, String.toList_ofList, List.flatMap_cons, hc, ← encode_of_decode hs, encode]
      exact ⟨_, he ▸ decode_encode _⟩

/-- The first byte of a form tells its length. -/
theorem Form.append_inj {v v' : Nat} {form form' rest rest' : List UInt8} (h : Form v form)
    (h' : Form v' form') (he : form ++ rest = form' ++ rest') : form = form' ∧ rest = rest' := by
  cases form with
  | nil => cases h
  | cons a tail =>
    cases form' with
    | nil => cases h'
    | cons a' tail' =>
      rw [List.cons_append, List.cons_append, List.cons.injEq] at he
      obtain ⟨rfl, htail⟩ := he
      have hd := decodeChar_of_form h rest
      rw [htail, decodeChar_of_form h' rest'] at hd
      have hl : tail'.length = tail.length := (Prod.mk.inj (Except.ok.inj hd)).2
      obtain ⟨rfl, rfl⟩ := List.append_inj htail hl.symm
      exact ⟨rfl, rfl⟩

theorem Valid.of_append {front back : List UInt8} (hf : Valid front) (h : Valid (front ++ back)) :
    Valid back := by
  induction hf with
  | nil => exact h
  | @cons v form rest hform _ ih =>
    rw [List.append_assoc] at h
    generalize he : form ++ (rest ++ back) = bytes at h
    cases h with
    | nil => cases hform <;> cases he
    | cons hform' hrest =>
      obtain ⟨-, rfl⟩ := hform.append_inj hform' he
      exact ih hrest

/-- A number spread over two, three or four bytes, whether or not that many are the form
of the number. -/
inductive Spread : Nat → List UInt8 → Prop where
  | two {v : Nat} {a b : UInt8} : a.toNat = 0xC0 + v / 64 → b.toNat = 0x80 + v % 64 →
      v < 0x800 → Spread v [a, b]
  | three {v : Nat} {a b c : UInt8} : a.toNat = 0xE0 + v / 4096 → b.toNat = 0x80 + v / 64 % 64 →
      c.toNat = 0x80 + v % 64 → v < 0x10000 → Spread v [a, b, c]
  | four {v : Nat} {a b c d : UInt8} : a.toNat = 0xF0 + v / 262144 →
      b.toNat = 0x80 + v / 4096 % 64 → c.toNat = 0x80 + v / 64 % 64 → d.toNat = 0x80 + v % 64 →
      v < 0x200000 → Spread v [a, b, c, d]

/-- In well-formed text a number is spread over the bytes of its form. -/
theorem Spread.form {v : Nat} {bytes rest : List UInt8} (hs : Spread v bytes)
    (h : Valid (bytes ++ rest)) : Form v bytes := by
  generalize he : bytes ++ rest = all at h
  cases h with
  | nil => cases hs <;> cases he
  | cons hform _ =>
    cases hs <;> cases hform <;>
      simp only [List.cons_append, List.nil_append, List.cons.injEq] at he
    -- a form of another length begins with another byte
    any_goals
      obtain ⟨rfl, -⟩ := he
      omega
    · obtain ⟨rfl, rfl, -⟩ := he
      exact .two ‹_› ‹_› (by omega) (by omega)
    · obtain ⟨rfl, rfl, rfl, -⟩ := he
      exact .three ‹_› ‹_› ‹_› (by omega) (by omega) (by omega)
    · obtain ⟨rfl, rfl, rfl, rfl, -⟩ := he
      exact .four ‹_› ‹_› ‹_› ‹_› (by omega) (by omega)

end Utf8

namespace Utf16

theorem isHigh_iff (u : UInt16) : isHigh u = true ↔ 0xD800 ≤ u.toNat ∧ u.toNat ≤ 0xDBFF := by
  simp [isHigh, UInt16.le_iff_toNat_le]

theorem isLow_iff (u : UInt16) : isLow u = true ↔ 0xDC00 ≤ u.toNat ∧ u.toNat ≤ 0xDFFF := by
  simp [isLow, UInt16.le_iff_toNat_le]

theorem toNat_unit {n : Nat} (h : n < 65536) : (UInt16.ofNat n).toNat = n :=
  UInt16.toNat_ofNat_of_lt' h

/-- A unit that is no surrogate stands for a character of its own. -/
theorem decodeUnits_single {u : UInt16} (hu : u.toNat < 0xD800 ∨ 0xDFFF < u.toNat)
    (rest : List UInt16) :
    decodeUnits (u :: rest) = (Char.ofNat u.toNat :: ·) <$> decodeUnits rest := by
  have hh : ¬ isHigh u = true := by rw [isHigh_iff]; omega
  have hl : ¬ isLow u = true := by rw [isLow_iff]; omega
  cases rest with
  | nil => simp [decodeUnits, hh, hl]
  | cons v rest => rw [decodeUnits, if_neg hh, if_neg hl]

theorem decodeUnits_pair {u v : UInt16} (hu : isHigh u = true) (hv : isLow v = true)
    (rest : List UInt16) : decodeUnits (u :: v :: rest) =
      (Char.ofNat (0x10000 + (u.toNat - 0xD800) * 1024 + (v.toNat - 0xDC00)) :: ·) <$>
        decodeUnits rest := by
  rw [decodeUnits, if_pos hu, if_pos hv]

theorem decodeUnits_encodeChar (c : Char) (rest : List UInt16) :
    decodeUnits (encodeChar c ++ rest) = (c :: ·) <$> decodeUnits rest := by
  have hv : c.toNat < 0xD800 ∨ 0xDFFF < c.toNat ∧ c.toNat < 0x110000 := c.valid
  unfold encodeChar
  dsimp only
  split_ifs with h
  · have hu : (UInt16.ofNat c.toNat).toNat = c.toNat := toNat_unit h
    rw [List.singleton_append, decodeUnits_single (by omega), hu, Char.ofNat_toNat]
  · have hu : (UInt16.ofNat (0xD800 + (c.toNat - 0x10000) / 1024)).toNat = _ :=
      toNat_unit (by omega)
    have hl : (UInt16.ofNat (0xDC00 + (c.toNat - 0x10000) % 1024)).toNat = _ :=
      toNat_unit (by omega)
    have hc : 0x10000 + (0xD800 + (c.toNat - 0x10000) / 1024 - 0xD800) * 1024 +
        (0xDC00 + (c.toNat - 0x10000) % 1024 - 0xDC00) = c.toNat := by omega
    rw [List.cons_append, List.cons_append, List.nil_append,
      decodeUnits_pair ((isHigh_iff _).mpr (by omega)) ((isLow_iff _).mpr (by omega)), hu, hl, hc,
      Char.ofNat_toNat]

theorem decodeUnits_encode (chars : List Char) :
    decodeUnits (chars.flatMap encodeChar) = some chars := by
  induction chars with
  | nil => rfl
  | cons c chars ih =>
    rw [List.flatMap_cons, decodeUnits_encodeChar, ih]
    rfl

/-- Decoding undoes encoding. -/
theorem decode_encode (s : String) : decode (encode s) = some s := by
  rw [decode, encode, decodeUnits_encode]
  simp

theorem encodeChar_single {u : UInt16} (hu : u.toNat < 0xD800 ∨ 0xDFFF < u.toNat) :
    encodeChar (Char.ofNat u.toNat) = [u] := by
  have h := u.toNat_lt
  simp only [encodeChar]
  rw [toNat_char (by omega), if_pos (by omega), UInt16.ofNat_toNat]

theorem encodeChar_pair {u v : UInt16} (hu : isHigh u = true) (hv : isLow v = true) :
    encodeChar (Char.ofNat (0x10000 + (u.toNat - 0xD800) * 1024 + (v.toNat - 0xDC00))) =
      [u, v] := by
  rw [isHigh_iff] at hu
  rw [isLow_iff] at hv
  simp only [encodeChar]
  rw [toNat_char (by omega), if_neg (by omega)]
  simp only [List.cons.injEq, and_true, ← UInt16.toNat_inj]
  rw [toNat_unit (by omega), toNat_unit (by omega)]
  omega

theorem encode_of_decodeUnits {units : List UInt16} {chars : List Char}
    (h : decodeUnits units = some chars) : chars.flatMap encodeChar = units := by
  fun_induction decodeUnits units generalizing chars with
  | case1 => cases h; rfl
  | case2 => cases h
  | case3 u hs =>
    rw [Bool.or_eq_true, not_or, isHigh_iff, isLow_iff] at hs
    simp only [Option.some.injEq] at h
    rw [← h, List.flatMap_singleton, encodeChar_single (by omega)]
  | case4 u v rest hu hv ih =>
    obtain ⟨more, hm, rfl⟩ := Option.map_eq_some_iff.mp h
    rw [List.flatMap_cons, encodeChar_pair hu hv, ih hm]
    rfl
  | case5 => cases h
  | case6 => cases h
  | case7 u v rest hu hl ih =>
    obtain ⟨more, hm, rfl⟩ := Option.map_eq_some_iff.mp h
    rw [isHigh_iff] at hu
    rw [isLow_iff] at hl
    rw [List.flatMap_cons, encodeChar_single (by omega), ih hm]
    rfl

/-- Every text has one code. -/
theorem encode_of_decode {units : List UInt16} {s : String} (h : decode units = some s) :
    encode s = units := by
  obtain ⟨chars, hc, rfl⟩ := Option.map_eq_some_iff.mp h
  rw [encode, String.toList_ofList, encode_of_decodeUnits hc]

end Utf16
end VectorTable
