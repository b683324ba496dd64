import VectorTable.Proofs.Grammar

/-! What bytes are items. Of each of the five types exactly the bytes of a certain form
decode: well-formed UTF-8 for texts, and a word of the right width for numbers. An item has
one byte string and a byte string one item, so two items of a file are equal if and only if
their stored bytes are. -/
namespace VectorTable

namespace Item

variable {α : Type} [Item α]

theorem eq_iff_bytes [LawfulItem α] {bytes bytes' : List UInt8} {x x' : α}
    (h : decode bytes = .ok x) (h' : decode bytes' = .ok x') : x = x' ↔ bytes = bytes' := by
  rw [← LawfulItem.encode_of_decode h, ← LawfulItem.encode_of_decode h']
  constructor
  · rintro rfl
    rfl
  · intro he
    have hd := LawfulItem.decode_encode x
    rw [he, LawfulItem.decode_encode] at hd
    exact (Except.ok.inj hd).symm

/-- The items of some entries are told apart by their stored bytes. -/
structure StoredAs (entries : List (α × Slot)) (codes : List (List UInt8)) : Prop where
  length_eq : codes.length = entries.length
  eq_iff : ∀ (i j : Nat) (hi : i < entries.length) (hj : j < entries.length),
    entries[i].1 = entries[j].1 ↔ codes[i] = codes[j]

theorem storedAs_pairs [LawfulItem α] (l : List (Layout.Entry α)) :
    StoredAs (l.map Layout.Entry.pair) (l.map Layout.Entry.code) where
  length_eq := by simp only [List.length_map]
  eq_iff i j hi hj := by
    have hi' : i < l.length := by simpa using hi
    have hj' : j < l.length := by simpa using hj
    simp only [List.getElem_map]
    exact eq_iff_bytes l[i].decodes l[j].decodes

/-- The items have exactly the byte strings of a form, one each. -/
structure ExactForm (α : Type) [Item α] (Form : List UInt8 → Prop) : Prop where
  decode_encode : ∀ x : α, decode (encode x) = .ok x
  decode_iff : ∀ (bytes : List UInt8) (x : α), decode bytes = .ok x ↔ encode x = bytes
  refused_iff : ∀ bytes : List UInt8,
    (∃ fault, (decode bytes : Except ItemFault α).mapError Error.itemCodec =
      .error (.itemCodec fault)) ↔ ¬ Form bytes
  eq_iff : ∀ {bytes bytes' : List UInt8} {x x' : α}, decode bytes = .ok x →
    decode bytes' = .ok x' → (x = x' ↔ bytes = bytes')
  stored : ∀ {source rest : Source} {entries : List (α × Slot)},
    Header.readEntries source = .ok (entries, rest) → ∃ codes, StoredAs entries codes ∧
      source = rest.behind (Layout.count codes.length ++
        (codes.zip entries).flatMap fun e => Layout.entry e.1 e.2.2)

theorem refused_iff_not_decoded {bytes : List UInt8} :
    (∃ fault, (decode bytes : Except ItemFault α).mapError Error.itemCodec =
      .error (.itemCodec fault)) ↔ ¬ ∃ x : α, decode bytes = .ok x := by
  cases (decode bytes : Except ItemFault α) <;> simp [Except.mapError]

theorem storedAs_of_read [LawfulItem α] {source rest : Source} {entries : List (α × Slot)}
    (h : Header.readEntries source = .ok (entries, rest)) : ∃ codes, StoredAs entries codes ∧
      source = rest.behind (Layout.count codes.length ++
        (codes.zip entries).flatMap fun e => Layout.entry e.1 e.2.2) := by
  obtain ⟨⟨l, hl⟩, rfl, rfl⟩ := Header.exact_entries.layout h
  refine ⟨l.map Layout.Entry.code, storedAs_pairs l, ?_⟩
  simp only [List.length_map, List.zip_map', List.flatMap_map]
  rfl

theorem exactForm_of [LawfulItem α] {Form : List UInt8 → Prop}
    (h : ∀ bytes, (∃ x : α, decode bytes = .ok x) ↔ Form bytes) : ExactForm α Form where
  decode_encode := LawfulItem.decode_encode
  decode_iff bytes x := by
    constructor
    · exact LawfulItem.encode_of_decode
    · rintro rfl
      exact LawfulItem.decode_encode x
  refused_iff bytes := by rw [refused_iff_not_decoded, h bytes]
  eq_iff := eq_iff_bytes
  stored := storedAs_of_read

/-- A word decodes if it has the width of its type. -/
theorem exists_decodeWord_iff {β : Type} {width : Nat} {typeName : String} {ofNat : Nat → β}
    (bytes : List UInt8) :
    (∃ x, decodeWord width typeName ofNat bytes = .ok x) ↔ bytes.length = width := by
  unfold decodeWord
  split_ifs with hw
  · exact iff_of_true ⟨_, rfl⟩ hw
  · exact iff_of_false (fun ⟨_, hx⟩ => nomatch hx) hw

theorem exists_decode_string_iff (bytes : List UInt8) :
    (∃ s : String, decode bytes = .ok s) ↔ Utf8.Valid bytes := by
  rw [← Utf8.exists_decode_iff]
  exact exists_congr fun s => except_mapError_eq_ok

/-- A number that has no form of its length: a surrogate, one that is too large, or one
that a character of fewer bytes has. -/
def Improper (v length : Nat) : Prop :=
  (0xD800 ≤ v ∧ v ≤ 0xDFFF) ∨ 0x10FFFF < v ∨
    ∃ c : Char, c.toNat = v ∧ (Utf8.encodeChar c).length < length

theorem not_form_of_improper {v : Nat} {bytes : List UInt8} (h : Improper v bytes.length) :
    ¬ Utf8.Form v bytes := by
  intro hf
  have hv := hf.scalar
  rcases h with h | h | ⟨c, rfl, hc⟩
  · omega
  · omega
  · rw [(Utf8.encodeChar_form c).unique hf] at hc
    omega

theorem not_valid_of_improper {front middle : List UInt8} {v : Nat} (hf : Utf8.Valid front)
    (hm : Utf8.Spread v middle) (h : Improper v middle.length) (rest : List UInt8) :
    ¬ Utf8.Valid (front ++ (middle ++ rest)) := fun hv =>
  not_form_of_improper h (hm.form (hf.of_append hv))

/-- Each type of items has exactly the byte strings of its form: well-formed UTF-8, or a word
of its width. Behind well-formed text no overlong form is taken, no surrogate and nothing above
U+10FFFF. -/
theorem exactForm_of_types :
    ExactForm String Utf8.Valid ∧
    ExactForm UInt32 (·.length = 4) ∧ ExactForm UInt64 (·.length = 8) ∧
    ExactForm Int32 (·.length = 4) ∧ ExactForm Int64 (·.length = 8) ∧
    ∀ (front middle rest : List UInt8) (v : Nat), Utf8.Valid front → Utf8.Spread v middle →
      Improper v middle.length → ∃ fault,
        (decode (front ++ (middle ++ rest)) : Except ItemFault String).mapError Error.itemCodec =
          .error (.itemCodec fault) := by
  refine ⟨exactForm_of exists_decode_string_iff, exactForm_of exists_decodeWord_iff,
    exactForm_of exists_decodeWord_iff, exactForm_of exists_decodeWord_iff,
    exactForm_of exists_decodeWord_iff, ?_⟩
  intro front middle rest v hf hm hi
  rw [refused_iff_not_decoded, exists_decode_string_iff]
  exact not_valid_of_improper hf hm hi rest

/-- A surrogate in three bytes behind a letter. -/
theorem exactForm_of_surrogate : Utf8.Valid [0x41] ∧ Utf8.Spread 0xD800 [0xED, 0xA0, 0x80] ∧
    Improper 0xD800 3 ∧ ∃ fault, (decode [0x41, 0xED, 0xA0, 0x80] :
      Except ItemFault String).mapError Error.itemCodec = .error (.itemCodec fault) := by
  have hf : Utf8.Valid [0x41] := Utf8.valid_encode "A"
  have hm : Utf8.Spread 0xD800 [0xED, 0xA0, 0x80] := .three rfl rfl rfl (by decide)
  have hi : Improper 0xD800 3 := .inl ⟨by decide, by decide⟩
  exact ⟨hf, hm, hi, exactForm_of_types.2.2.2.2.2 _ _ [] _ hf hm hi⟩

end Item
end VectorTable
