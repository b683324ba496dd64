import VectorTable.Proofs.Grammar

/-! Primitives one after another. A buffer takes any values in turn, and a value that has no
place in the format is refused without a trace. What was taken is read back in order, kind by
kind, to the last byte; so a refusal never brings reader and writer out of step. The two
primitives that do not take every input are `readLen` and `readUtf`, and it is said here which
inputs they take. -/
namespace VectorTable.Wire

/-- A value of one of the primitives. -/
inductive Value where
  | u8 (v : UInt8)
  | bool (v : Bool)
  | u16 (v : UInt16)
  | i32 (v : Int32)
  | i64 (v : Int64)
  | len (n : Nat)
  | utf (s : String)
  deriving DecidableEq

inductive Kind where
  | u8 | bool | u16 | i32 | i64 | len | utf
  deriving DecidableEq

namespace Value

def kind : Value → Kind
  | u8 _ => .u8
  | bool _ => .bool
  | u16 _ => .u16
  | i32 _ => .i32
  | i64 _ => .i64
  | len _ => .len
  | utf _ => .utf

/-- The primitive of a value; only a count makes use of its name. -/
def write (what : String) : Value → Writer Unit
  | u8 v => writeU8 v
  | bool v => writeBool v
  | u16 v => writeU16 v
  | i32 v => writeI32 v
  | i64 v => writeI64 v
  | len n => writeLen n what
  | utf s => writeUtf s

/-- A count must fit a signed word, and the code of a text a two-byte length. -/
def Fits : Value → Prop
  | len n => n < 2 ^ 31
  | utf s => (Utf8.encode s).length < 2 ^ 16
  | _ => True

end Value

def Kind.read (what : String) : Kind → Reader Value
  | .u8 => do pure (.u8 (← readU8 what))
  | .bool => do pure (.bool (← readBool what))
  | .u16 => do pure (.u16 (← readU16 what))
  | .i32 => do pure (.i32 (← readI32 what))
  | .i64 => do pure (.i64 (← readI64 what))
  | .len => do pure (.len (← readLen what))
  | .utf => do pure (.utf (← readUtf what))

/-- Values with the names of their fields. -/
abbrev Fields := List (String × Value)

/-- A buffer after an attempt to write one more value, and the outcome. -/
def attempt (buffer : List UInt8) (field : String × Value) : List UInt8 × Except Error Unit :=
  (buffer ++ (field.2.write field.1).trail, (field.2.write field.1).result)

/-- A buffer after a sequence of attempts, each made whatever became of the others, and the
outcomes. -/
def fill (buffer : List UInt8) : Fields → List UInt8 × List (Except Error Unit)
  | [] => (buffer, [])
  | field :: fields =>
    let (next, outcome) := attempt buffer field
    let (last, outcomes) := fill next fields
    (last, outcome :: outcomes)

/-- The values whose outcome is a success. -/
def taken : Fields → List (Except Error Unit) → List Value
  | field :: fields, outcome :: outcomes =>
    match outcome with
    | .ok () => field.2 :: taken fields outcomes
    | .error _ => taken fields outcomes
  | _, _ => []

/-- One value of each kind, in turn. -/
def readKinds : List (String × Kind) → Reader (List Value)
  | [] => pure []
  | (what, kind) :: kinds => do
    let v ← kind.read what
    let rest ← readKinds kinds
    pure (v :: rest)

theorem carries_value {v : Value} (h : v.Fits) (what what' : String) :
    Carries (v.write what) (v.kind.read what') v := by
  cases v with
  | u8 v => exact (carries_u8 v what').map (Reads.pure _)
  | bool v => exact (carries_bool v what').map (Reads.pure _)
  | u16 v => exact (carries_u16 v what').map (Reads.pure _)
  | i32 v => exact (carries_i32 v what').map (Reads.pure _)
  | i64 v => exact (carries_i64 v what').map (Reads.pure _)
  | len n => exact (carries_len h what what').map (Reads.pure _)
  | utf s => exact (carries_utf h what').map (Reads.pure _)

theorem write_of_not_fits {v : Value} (h : ¬ v.Fits) (what : String) :
    ∃ flaw, v.write what = Writer.fail (.malformed flaw) := by
  cases v with
  | len n => exact ⟨_, if_neg h⟩
  | utf s => exact ⟨_, if_neg h⟩
  | _ => exact absurd trivial h

theorem attempt_of_fits {field : String × Value} (h : field.2.Fits) (what : String) :
    ∃ bytes, Reads (field.2.kind.read what) bytes field.2 ∧
      ∀ buffer, attempt buffer field = (buffer ++ bytes, .ok ()) := by
  obtain ⟨bytes, ⟨hok, rfl⟩, hr⟩ := carries_value h field.1 what
  exact ⟨_, hr, fun buffer => by rw [attempt, hok]⟩

/-- What has no place in the format is malformed and leaves the buffer as it is. -/
theorem attempt_of_not_fits {field : String × Value} (h : ¬ field.2.Fits) :
    ∃ flaw, ∀ buffer, attempt buffer field = (buffer, .error (.malformed flaw)) := by
  obtain ⟨flaw, hw⟩ := write_of_not_fits h field.1
  refine ⟨flaw, fun buffer => ?_⟩
  rw [attempt, hw]
  exact congrArg (·, _) (List.append_nil buffer)

/-- A buffer grows by what is read back as the values taken, whatever stood in it before. -/
theorem fill_reads (buffer : List UInt8) (fields : Fields) : ∃ bytes,
    (fill buffer fields).1 = buffer ++ bytes ∧ ∀ kinds : List (String × Kind),
      kinds.map (·.2) = (taken fields (fill buffer fields).2).map Value.kind →
        Reads (readKinds kinds) bytes (taken fields (fill buffer fields).2) := by
  induction fields generalizing buffer with
  | nil =>
    refine ⟨[], (List.append_nil buffer).symm, fun kinds hk => ?_⟩
    cases List.map_eq_nil_iff.mp hk
    exact Reads.pure []
  | cons field fields ih =>
    by_cases hf : field.2.Fits
    -- the value is in front of those that follow, in the buffer and among the values taken
    · obtain ⟨front, -, hput⟩ := attempt_of_fits hf ""
      obtain ⟨back, hfill, hback⟩ := ih (buffer ++ front)
      refine ⟨front ++ back, ?_, ?_⟩
      · rw [fill, hput, hfill, List.append_assoc]
      · intro kinds hk
        rw [fill, hput] at hk ⊢
        obtain ⟨⟨what, kind⟩, kinds, rfl, rfl, hrest⟩ := List.map_eq_cons_iff.mp hk
        obtain ⟨front', hread, hput'⟩ := attempt_of_fits hf what
        have hfront : front' = front := by
          have hp := (hput' buffer).symm.trans (hput buffer)
          exact List.append_cancel_left (Prod.mk.inj hp).1
        subst hfront
        have hall := (hback kinds hrest).bind (f := fun rest => pure (field.2 :: rest)) (Reads.pure _)
        rw [List.append_nil] at hall
        exact hread.bind hall
    · obtain ⟨flaw, hput⟩ := attempt_of_not_fits hf
      obtain ⟨back, hfill, hback⟩ := ih buffer
      refine ⟨back, ?_, ?_⟩
      · rw [fill, hput, hfill]
      · intro kinds hk
        rw [fill, hput] at hk ⊢
        exact hback kinds hk

theorem ofBigEndian_pair (hi lo : UInt8) :
    ofBigEndian [hi, lo] = 256 * hi.toNat + lo.toNat := by
  simp only [ofBigEndian, List.reverse_cons, List.reverse_nil, List.nil_append,
    List.cons_append, ofLittleEndian]
  omega

theorem uint16_eq (hi lo : UInt8) :
    Layout.uint16 (UInt16.ofNat (256 * hi.toNat + lo.toNat)) = [hi, lo] := by
  have hhi := hi.toNat_lt
  have hlo := lo.toNat_lt
  rw [Layout.uint16, Utf16.toNat_unit (by omega), ← ofBigEndian_pair]
  exact bigEndian_ofBigEndian [hi, lo]

theorem exists_uint16 (v : UInt16) :
    ∃ hi lo : UInt8, Layout.uint16 v = [hi, lo] ∧ v.toNat = 256 * hi.toNat + lo.toNat := by
  have hl : (Layout.uint16 v).length = 2 := length_bigEndian 2 _
  obtain ⟨hi, lo, hb⟩ := List.length_eq_two.mp hl
  refine ⟨hi, lo, hb, ?_⟩
  rw [← ofBigEndian_pair, ← hb, Layout.uint16, ofBigEndian_bigEndian_of_lt v.toNat_lt]

/-- A text is read off a length in two bytes and as many bytes of well-formed UTF-8. -/
theorem exists_readUtf_iff (what : String) (bytes : List UInt8) (ending : Ending) :
    (∃ s rest, readUtf what ⟨bytes, ending⟩ = .ok (s, rest)) ↔
      ∃ hi lo text tail, bytes = hi :: lo :: (text ++ tail) ∧
        text.length = 256 * hi.toNat + lo.toNat ∧ Utf8.Valid text := by
  constructor
  · rintro ⟨s, rest, h⟩
    obtain ⟨t, hs, rfl⟩ := (exact_utf what).layout h
    obtain ⟨rfl, -⟩ := Source.mk.inj hs
    obtain ⟨hi, lo, hb, hv⟩ := exists_uint16 (UInt16.ofNat (Utf8.encode t.string).length)
    refine ⟨hi, lo, Utf8.encode t.string, rest.bytes, ?_, ?_, Utf8.valid_encode t.string⟩
    · rw [Layout.text, hb]
      rfl
    · rw [← hv, UInt16.toNat_ofNat_of_lt' t.fits]
  · rintro ⟨hi, lo, text, tail, rfl, hl, hv⟩
    obtain ⟨s, hs⟩ := Utf8.exists_decode_iff.mpr hv
    obtain rfl : Utf8.encode s = text := Utf8.encode_of_decode hs
    have hhi := hi.toNat_lt
    have hlo := lo.toNat_lt
    have hr := (exact_utf what).reads ⟨s, by omega⟩ tail ending
    dsimp only at hr
    rw [Layout.text, hl, uint16_eq] at hr
    exact ⟨s, _, hr⟩

theorem ofBigEndian_word (a b c d : UInt8) : ofBigEndian [a, b, c, d] =
    16777216 * a.toNat + 65536 * b.toNat + 256 * c.toNat + d.toNat := by
  simp only [ofBigEndian, List.reverse_cons, List.reverse_nil, List.nil_append,
    List.cons_append, ofLittleEndian]
  omega

theorem count_eq {n : Nat} (h : n < 2 ^ 31) : Layout.count n = bigEndian 4 n := by
  have hn : (Int32.ofNat n).toUInt32.toNat = n :=
    UInt32.toNat_ofNat_of_lt' (Nat.lt_trans h (by decide))
  rw [Layout.count, Layout.int32, hn]

/-- A count is read off four bytes whose sign bit is not set. -/
theorem exists_readLen_iff (what : String) (bytes : List UInt8) (ending : Ending) :
    (∃ n rest, readLen what ⟨bytes, ending⟩ = .ok (n, rest)) ↔
      ∃ a b c d tail, bytes = a :: b :: c :: d :: tail ∧ a.toNat < 128 := by
  constructor
  · rintro ⟨n, rest, h⟩
    obtain ⟨⟨n, hn⟩, hs, rfl⟩ := (exact_len what).layout h
    obtain ⟨rfl, -⟩ := Source.mk.inj hs
    dsimp only
    rw [count_eq hn]
    obtain ⟨a, b, c, d, hb⟩ := List.length_eq_four.mp (length_bigEndian 4 n)
    have hv : ofBigEndian (bigEndian 4 n) = n := ofBigEndian_bigEndian_of_lt (by omega)
    rw [hb, ofBigEndian_word] at hv
    exact ⟨a, b, c, d, rest.bytes, by rw [hb]; rfl, by omega⟩
  · rintro ⟨a, b, c, d, tail, rfl, ha⟩
    have hb := b.toNat_lt
    have hc := c.toNat_lt
    have hd := d.toNat_lt
    have hn : ofBigEndian [a, b, c, d] < 2 ^ 31 := by
      rw [ofBigEndian_word]
      omega
    have hr := (exact_len what).reads ⟨_, hn⟩ tail ending
    dsimp only at hr
    rw [count_eq hn] at hr
    rw [show bigEndian 4 (ofBigEndian [a, b, c, d]) = [a, b, c, d] from
      bigEndian_ofBigEndian [a, b, c, d]] at hr
    exact ⟨_, _, hr⟩

/-- An attempt to write a value succeeds if the value has a place in the format, and else it is
malformed and leaves no byte. Whatever is attempted in turn, the values taken are read back in
order and to the last byte. A text is read exactly off its length and well-formed UTF-8, and a
count exactly off a word that is not negative. -/
theorem fill_in_step :
    (∀ (buffer : List UInt8) (field : String × Value),
      field.2.Fits ∧ (attempt buffer field).2 = .ok () ∨ ¬ field.2.Fits ∧
        ∃ flaw, attempt buffer field = (buffer, .error (.malformed flaw))) ∧
    (∀ (fields : Fields) (kinds : List (String × Kind)) (ending : Ending),
      kinds.map (·.2) = (taken fields (fill [] fields).2).map Value.kind →
        readKinds kinds ⟨(fill [] fields).1, ending⟩ =
          .ok (taken fields (fill [] fields).2, ⟨[], ending⟩)) ∧
    (∀ (what : String) (bytes : List UInt8) (ending : Ending),
      (∃ s rest, readUtf what ⟨bytes, ending⟩ = .ok (s, rest)) ↔
        ∃ hi lo text tail, bytes = hi :: lo :: (text ++ tail) ∧
          text.length = 256 * hi.toNat + lo.toNat ∧ Utf8.Valid text) ∧
    ∀ (what : String) (bytes : List UInt8) (ending : Ending),
      (∃ n rest, readLen what ⟨bytes, ending⟩ = .ok (n, rest)) ↔
        ∃ a b c d tail, bytes = a :: b :: c :: d :: tail ∧ a.toNat < 128 := by
  refine ⟨?_, ?_, exists_readUtf_iff, exists_readLen_iff⟩
  · intro buffer field
    by_cases hf : field.2.Fits
    · obtain ⟨bytes, -, hput⟩ := attempt_of_fits hf ""
      exact .inl ⟨hf, by rw [hput]⟩
    · obtain ⟨flaw, hput⟩ := attempt_of_not_fits hf
      exact .inr ⟨hf, flaw, hput buffer⟩
  · intro fields kinds ending hk
    obtain ⟨bytes, hfill, hread⟩ := fill_reads [] fields
    have hr := hread kinds hk [] ending
    rwa [List.append_nil, ← List.nil_append bytes, ← hfill] at hr

/-- A count that does not fit, in front of three values that do. -/
def skipping : Fields :=
  [("count", .len (2 ^ 31)), ("size", .len 5), ("name", .utf "é"), ("flag", .bool true)]

theorem taken_skipping :
    taken skipping (fill [] skipping).2 = [.len 5, .utf "é", .bool true] := rfl

theorem fill_in_step_skipping :
    [("size", Kind.len), ("name", .utf), ("flag", .bool)].map (·.2) =
      (taken skipping (fill [] skipping).2).map Value.kind ∧
    readKinds [("size", .len), ("name", .utf), ("flag", .bool)] ⟨(fill [] skipping).1, .endOfData⟩ =
      .ok ([.len 5, .utf "é", .bool true], ⟨[], .endOfData⟩) := by
  have hk : [("size", Kind.len), ("name", .utf), ("flag", .bool)].map (·.2) =
      (taken skipping (fill [] skipping).2).map Value.kind := by
    rw [taken_skipping]
    rfl
  exact ⟨hk, taken_skipping ▸ fill_in_step.2.1 skipping _ .endOfData hk⟩

end VectorTable.Wire
