import VectorTable.Persisted
import VectorTable.Proofs.Codec

/-! Where a value ends in its source. A reader is delimited if it takes a piece off
the front that it needs to the last byte: nothing behind the piece matters, and when
the piece breaks off, an end of the data is a flaw of the data and a failing device is
reported as such. Sequences and repetitions of delimited readers are delimited, and so
is every reader of the format. -/
namespace VectorTable

/-- The source with some bytes in front. -/
def Source.behind (front : List UInt8) (s : Source) : Source := ⟨front ++ s.bytes, s.ending⟩

@[simp] theorem Source.behind_append (front back : List UInt8) (s : Source) :
    s.behind (front ++ back) = (s.behind back).behind front := by
  simp [behind]

/-- The errors that a source is to blame for which ends too early. -/
inductive Ending.Blames : Ending → Error → Prop
  | endOfData (flaw : Flaw) : Blames .endOfData (.malformed flaw)
  | failing (fault : IoFault) : Blames (.failing fault) (.io fault)

namespace Reader

variable {α β : Type}

/-- The bytes break off before the reader has its answer. -/
def Torn (r : Reader α) (bytes : List UInt8) : Prop :=
  ∀ ending, ∃ e, r ⟨bytes, ending⟩ = .error e ∧ ending.Blames e

theorem Torn.bind {r : Reader α} {bytes : List UInt8} (h : Torn r bytes) (f : α → Reader β) :
    Torn (r >>= f) bytes := by
  intro ending
  obtain ⟨e, he, hb⟩ := h ending
  refine ⟨e, ?_, hb⟩
  show (r ⟨bytes, ending⟩ >>= fun x => f x.1 x.2) = _
  rw [he]
  rfl

/-- The reader takes `front` for `a`, and needs all of it. -/
structure Delimits (r : Reader α) (front : List UInt8) (a : α) : Prop where
  reads : Reads r front a
  torn : ∀ k < front.length, Torn r (front.take k)

theorem Delimits.pure (a : α) : Delimits (Pure.pure a) [] a :=
  ⟨Reads.pure a, fun _ hk => absurd hk (Nat.not_lt_zero _)⟩

/-- A sequence needs the piece of its first step and the piece of its second. Whether the
first piece broke off need not be for the first step to say: `upTo` is content with fewer
bytes, and the step behind it counts them. -/
theorem Delimits.seq {r : Reader α} {f : α → Reader β} {front back : List UInt8} {a : α} {b : β}
    (hr : Reads r front a) (ht : ∀ k < front.length, Torn (r >>= f) (front.take k))
    (hf : Delimits (f a) back b) : Delimits (r >>= f) (front ++ back) b := by
  refine ⟨hr.bind hf.reads, ?_⟩
  intro k hk
  rw [List.length_append] at hk
  rw [List.take_append]
  -- the break is within the first piece, or behind it in the second
  by_cases h : k < front.length
  · rw [Nat.sub_eq_zero_of_le (Nat.le_of_lt h), List.take_zero, List.append_nil]
    exact ht k h
  · rw [List.take_of_length_le (Nat.not_lt.mp h)]
    intro ending
    obtain ⟨e, he, hb⟩ := hf.torn (k - front.length) (by omega) ending
    refine ⟨e, ?_, hb⟩
    show (r _ >>= fun x => f x.1 x.2) = _
    rw [hr]
    exact he

theorem Delimits.bind {r : Reader α} {f : α → Reader β} {front back : List UInt8} {a : α} {b : β}
    (hr : Delimits r front a) (hf : Delimits (f a) back b) :
    Delimits (r >>= f) (front ++ back) b :=
  .seq hr.reads (fun k hk => (hr.torn k hk).bind f) hf

theorem exactly_eq_ok {n : Nat} {what : String} {source rest : Source} {bytes : List UInt8}
    (h : exactly n what source = .ok (bytes, rest)) :
    bytes.length = n ∧ source = rest.behind bytes := by
  unfold exactly at h
  dsimp only at h
  split_ifs at h with hn
  · cases h
    exact ⟨hn, by simp [Source.behind]⟩
  · cases he : source.ending <;> simp [he] at h

/-- Whatever the reader answers, it has taken a piece off the front that it needs. -/
def Delimited (r : Reader α) : Prop :=
  ∀ (source rest : Source) (a : α), r source = .ok (a, rest) →
    ∃ front, source = rest.behind front ∧ Delimits r front a

namespace Delimited

theorem pure (a : α) : Delimited (Pure.pure a) := by
  intro source rest b h
  obtain ⟨rfl, rfl⟩ := pure_eq_ok.mp h
  exact ⟨[], rfl, .pure a⟩

theorem fail (e : Error) : Delimited (Reader.fail e : Reader α) :=
  fun _ _ _ h => absurd h fail_ne_ok

theorem ofExcept (x : Except Error α) : Delimited (Reader.ofExcept x) := by
  cases x with
  | error e => exact fail e
  | ok a => exact pure a

theorem bind {r : Reader α} {f : α → Reader β} (hr : Delimited r) (hf : ∀ a, Delimited (f a)) :
    Delimited (r >>= f) := by
  intro source rest b h
  obtain ⟨a, middle, ha, hb⟩ := bind_eq_ok.mp h
  obtain ⟨front, rfl, hfront⟩ := hr _ _ _ ha
  obtain ⟨back, rfl, hback⟩ := hf a _ _ _ hb
  exact ⟨front ++ back, by simp, hfront.bind hback⟩

theorem times {r : Reader α} (hr : Delimited r) (n : Nat) : Delimited (Reader.times n r) := by
  induction n with
  | zero => exact pure []
  | succ n ih =>
    rw [times_succ]
    exact hr.bind fun a => ih.bind fun rest => pure (a :: rest)

theorem exactly (n : Nat) (what : String) : Delimited (Reader.exactly n what) := by
  intro source rest bytes h
  obtain ⟨hn, rfl⟩ := exactly_eq_ok h
  refine ⟨bytes, rfl, Reads.exactly hn what, ?_⟩
  intro k hk ending
  have hshort : ¬ ((bytes.take k).take n).length = n := by
    rw [List.take_take, List.length_take]
    omega
  simp only [Reader.exactly, if_neg hshort]
  cases ending with
  | endOfData => exact ⟨_, rfl, .endOfData _⟩
  | failing fault => exact ⟨_, rfl, .failing fault⟩

end Delimited

theorem upTo_eq_ok {n : Nat} {source rest : Source} {data : List UInt8}
    (h : upTo n source = .ok (data, rest)) : source = rest.behind data ∧
      (data.length = n ∨ data.length < n ∧ rest = ⟨[], .endOfData⟩) := by
  unfold upTo at h
  dsimp only at h
  split_ifs at h with hn
  · cases h
    exact ⟨by simp [Source.behind], .inl hn⟩
  · have hlt : (source.bytes.take n).length < n :=
      Nat.lt_of_le_of_ne (List.length_take_le n source.bytes) hn
    have hall : source.bytes.take n = source.bytes := by
      rw [List.length_take] at hlt
      exact List.take_of_length_le (by omega)
    cases he : source.ending with
    | failing fault => simp [he] at h
    | endOfData =>
      simp only [he] at h
      cases h
      refine ⟨?_, .inr ⟨hlt, rfl⟩⟩
      rw [hall, ← he]
      simp [Source.behind]

theorem upTo_short {n : Nat} {data : List UInt8} (h : data.length < n) :
    upTo n ⟨data, .endOfData⟩ = .ok (data, ⟨[], .endOfData⟩) ∧
      ∀ fault, upTo n ⟨data, .failing fault⟩ = .error (.io fault) := by
  have htake : data.take n = data := List.take_of_length_le (Nat.le_of_lt h)
  simp [upTo, htake, Nat.ne_of_lt h]

/-- As many bytes as there are, if what comes next finds fault with too few of them. -/
theorem Delimited.upTo {n : Nat} {f : List UInt8 → Reader β} (hf : ∀ data, Delimited (f data))
    (hshort : ∀ data, data.length < n → ∀ s, ∃ flaw, f data s = .error (.malformed flaw)) :
    Delimited (Reader.upTo n >>= f) := by
  intro source rest b h
  obtain ⟨data, middle, hd, hb⟩ := bind_eq_ok.mp h
  obtain ⟨rfl, hn | ⟨hn, -⟩⟩ := upTo_eq_ok hd
  · obtain ⟨back, rfl, hback⟩ := hf data _ _ _ hb
    refine ⟨data ++ back, by simp, .seq (Reads.upTo hn) ?_ hback⟩
    intro k hk ending
    have hlt : (data.take k).length < n := by
      rw [List.length_take]
      omega
    cases ending with
    | endOfData =>
      obtain ⟨flaw, hflaw⟩ := hshort _ hlt ⟨[], .endOfData⟩
      refine ⟨_, ?_, .endOfData flaw⟩
      show (Reader.upTo n _ >>= fun x => f x.1 x.2) = _
      rw [(upTo_short hlt).1]
      exact hflaw
    | failing fault =>
      refine ⟨_, ?_, .failing fault⟩
      show (Reader.upTo n _ >>= fun x => f x.1 x.2) = _
      rw [(upTo_short hlt).2]
      rfl
  · obtain ⟨flaw, hflaw⟩ := hshort data hn middle
    rw [hflaw] at hb
    cases hb

end Reader

open Reader

namespace Wire

variable (what : String)

theorem delimited_u8 : Delimited (readU8 what) := (Delimited.exactly 1 what).bind fun _ => .pure _

theorem delimited_bool : Delimited (readBool what) := (delimited_u8 what).bind fun _ => .pure _

theorem delimited_u16 : Delimited (readU16 what) := (Delimited.exactly 2 what).bind fun _ => .pure _

theorem delimited_i32 : Delimited (readI32 what) := (Delimited.exactly 4 what).bind fun _ => .pure _

theorem delimited_i64 : Delimited (readI64 what) := (Delimited.exactly 8 what).bind fun _ => .pure _

theorem delimited_len : Delimited (readLen what) := by
  refine (delimited_i32 what).bind fun n => ?_
  split
  · exact .fail _
  · exact .pure _

theorem delimited_bytes (len : Nat) : Delimited (readBytes len what) := by
  unfold readBytes
  split
  · exact .fail _
  · exact .exactly len what

theorem delimited_utf : Delimited (readUtf what) := by
  refine (delimited_u16 what).bind fun len => (delimited_bytes what _).bind fun bytes => ?_
  split
  · exact .pure _
  · exact .fail _

end Wire

namespace Shape

theorem delimited_read : Delimited read := by
  refine (Wire.delimited_len _).bind fun rank => ?_
  split
  · exact .fail _
  · refine ((Wire.delimited_i64 _).times rank).bind fun dims => ?_
    refine (Wire.delimited_len _).bind fun count => ?_
    split
    · exact .fail _
    · refine ((Wire.delimited_u16 _).times count).bind fun units => ?_
      split
      · exact .pure _
      · exact .fail _

theorem delimited_readAll : Delimited readAll := by
  refine (Wire.delimited_len _).bind fun count => ?_
  split
  · exact .fail _
  · exact delimited_read.times count

end Shape

namespace Parameter

theorem delimited_marker : Delimited readMarker := by
  refine (Wire.delimited_u16 _).bind fun found => ?_
  split_ifs
  · exact .pure _
  · exact .fail _
  · exact .fail _

theorem delimited_version : Delimited readVersion := by
  refine (Wire.delimited_u8 _).bind fun found => ?_
  split
  · exact .pure _
  · exact .fail _

theorem delimited_dataType (what : String) : Delimited (readDataType what) :=
  (Wire.delimited_utf what).bind fun _ => .ofExcept _

/-- The data of a matrix are taken as far as they go, and then counted. -/
theorem delimited_data (type : DataType) (shape : Shape) : Delimited (readData type shape) := by
  unfold readData
  split
  · exact .fail _
  next rows cols _ =>
    split
    · exact .fail _
    next needed hneeded =>
      refine (Wire.delimited_i64 _).bind fun declared => ?_
      split
      · exact .fail _
      · have hcells : needed = cellCount [rows, cols] * (ElementType.storable type).width := by
          unfold byteCount? at hneeded
          split_ifs at hneeded
          cases hneeded
          simp [cellCount, ElementType.width]
        refine .upTo (fun data => ?_) fun data hshort s => ?_
        · split
          · exact .pure _
          · exact .fail _
        · rw [Tensor.ofBytes?, dif_neg (by omega)]
          exact ⟨_, rfl⟩

theorem delimited_read : Delimited read :=
  delimited_marker.bind fun _ => delimited_version.bind fun _ =>
    (Wire.delimited_utf _).bind fun _ => (delimited_dataType _).bind fun _ =>
      Shape.delimited_read.bind fun _ => (delimited_data _ _).bind fun _ => .pure _

end Parameter

namespace Header

variable {α : Type} [Item α]

theorem delimited_entry : Delimited (readEntry : Reader (α × Slot)) := by
  refine (Wire.delimited_len _).bind fun len => (Wire.delimited_bytes _ len).bind fun bytes => ?_
  refine (Delimited.ofExcept _).bind fun item => (Wire.delimited_i32 _).bind fun raw => ?_
  split
  · exact .fail _
  · exact .pure _

theorem delimited_entries : Delimited (readEntries : Reader (List (α × Slot))) :=
  (Wire.delimited_len _).bind fun count => delimited_entry.times count

theorem delimited_body (version : UInt8) (shapes : List Shape) (zeroReserved : Option Bool) :
    Delimited (readBody version shapes zeroReserved : Reader (Header α)) :=
  (Wire.delimited_bool _).bind fun _ => (Parameter.delimited_dataType _).bind fun _ =>
    delimited_entries.bind fun _ => .pure _

theorem delimited_read : Delimited (read : Reader (Header α)) := by
  refine (Wire.delimited_u8 _).bind fun version => ?_
  split_ifs
  · exact Shape.delimited_readAll.bind fun shapes => delimited_body _ _ _
  · exact Shape.delimited_readAll.bind fun shapes =>
      (Wire.delimited_bool _).bind fun flag => delimited_body _ _ _
  · exact Shape.delimited_readAll.bind fun shapes => .pure _
  · exact .pure _
  · exact .fail _

end Header
end VectorTable
