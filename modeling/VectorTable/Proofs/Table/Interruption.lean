import VectorTable.Proofs.Limits
import VectorTable.Proofs.Migration
import VectorTable.Proofs.Table.RoundTrip

/-! Files that break off. A file says itself where it ends, so a reader neither needs nor
takes what is behind it, and of a file that is cut short it makes nothing: the end of the
data is a flaw of the file, a failing device is reported as such, and a table that was to
take the file in stays as it was. -/
namespace VectorTable.Table

variable {α : Type} [DecidableEq α] [Item α]

theorem delimited_reader : Reader.Delimited (Persisted.reader : Reader (Persisted α)) :=
  Header.delimited_read.bind fun _ => Parameter.delimited_read.bind fun _ => .ofExcept _

/-- No table comes of a source, neither a new one nor one that takes it in. -/
structure Refused (α : Type) [DecidableEq α] [Item α] (source : Source) (e : Error) : Prop where
  read : (Persisted.read source : Run Event Error (Persisted α × Source)).result = .error e
  restore : ∀ fallthrough : Fallthrough α, (restore source fallthrough).result = .error e
  load : ∀ t : Table α, (t.load source).2.result = .error e
  attempt : ∀ t : Table α, t.attempt source = t

theorem refused_of_read {source : Source} {e : Error}
    (h : (Persisted.read source : Run Event Error (Persisted α × Source)).result = .error e) :
    Refused α source e := by
  have hload : ∀ t : Table α, (t.load source).2.result = .error e := by
    intro t
    rw [(Prod.mk.inj (t.load_eq source)).2, h]
    rfl
  refine ⟨h, ?_, hload, fun t => attempt_of_error (hload t)⟩
  intro fallthrough
  rw [result_restore, h]
  rfl

theorem refused_of_torn {bytes : List UInt8}
    (h : Reader.Torn (Persisted.reader : Reader (Persisted α)) bytes) :
    (∃ flaw, Refused α ⟨bytes, .endOfData⟩ (.malformed flaw)) ∧
      ∀ fault, Refused α ⟨bytes, .failing fault⟩ (.io fault) := by
  constructor
  · obtain ⟨e, he, hblames⟩ := h .endOfData
    cases hblames with
    | endOfData flaw => exact ⟨flaw, refused_of_read (by rw [Persisted.result_read, he])⟩
  · intro fault
    obtain ⟨e, he, hblames⟩ := h (.failing fault)
    cases hblames with
    | failing => exact refused_of_read (by rw [Persisted.result_read, he])

/-- A source that was read begins with a piece that is needed to the last byte. -/
theorem delimits_of_read {source rest : Source} {p : Persisted α}
    (h : (Persisted.read source).result = .ok (p, rest)) :
    ∃ front, source = rest.behind front ∧ Reader.Delimits Persisted.reader front p := by
  rw [Persisted.result_read] at h
  exact delimited_reader source rest p h

/-- What was saved is taken as a whole or not at all. -/
theorem Coherent.rest_of_read_save [LawfulItem α] {t : Table α} {bytes : List UInt8}
    {rest : Source} {p : Persisted α} (h : t.Coherent) (hr : t.numItems < 2 ^ 63)
    (hc : t.width < 2 ^ 63) (hb : t.matrix.data.length < 2 ^ 63)
    (hs : (t.save none).result = .ok bytes)
    (hp : (Persisted.read ⟨bytes, .endOfData⟩).result = .ok (p, rest)) : rest.bytes = [] := by
  obtain ⟨type, hm⟩ := h.matrix
  obtain ⟨hf, rfl⟩ := (Image.leaves hm.elementType_eq _).mp (save_iff_writes.mp hs)
  by_cases hn : t.image.Readable
  · have hread := Persisted.read_layout (h.image_storable hn.items) hm h.index.numItems_pos hr hc hb
      h.index.assigned [] .endOfData
    rw [List.append_nil, hp] at hread
    cases hread
    rfl
  · obtain ⟨flaw, hflaw⟩ := Image.refuses_header type hf h.slots hn [] .endOfData
    rw [List.append_nil] at hflaw
    rw [Persisted.read_eq_error hflaw] at hp
    cases hp

/-- Nothing is read of a save that was broken off. If it were, the same piece would be taken
off the whole save, and leave the rest of it unread. -/
theorem Coherent.read_torn_save_ne_ok [LawfulItem α] {t : Table α} {bytes : List UInt8}
    (h : t.Coherent) (hr : t.numItems < 2 ^ 63) (hc : t.width < 2 ^ 63)
    (hb : t.matrix.data.length < 2 ^ 63) (hs : (t.save none).result = .ok bytes) {k : Nat}
    (hk : k < bytes.length) (ending : Ending) (x : Persisted α × Source) :
    (Persisted.read ⟨bytes.take k, ending⟩).result ≠ .ok x := by
  intro hread
  obtain ⟨p, rest⟩ := x
  obtain ⟨front, hfront, hreads, -⟩ := delimits_of_read hread
  have hcut : bytes.take k = front ++ rest.bytes := congrArg Source.bytes hfront
  have hbytes : bytes = front ++ (rest.bytes ++ bytes.drop k) := by
    rw [← List.append_assoc, ← hcut, List.take_append_drop]
  have hwhole := hreads (rest.bytes ++ bytes.drop k) .endOfData
  rw [← hbytes, ← Persisted.result_read] at hwhole
  have hrest := h.rest_of_read_save hr hc hb hs hwhole
  have hdrop := congrArg List.length (List.append_eq_nil_iff.mp hrest).2
  rw [List.length_drop, List.length_nil] at hdrop
  omega

/-- A file that was read is got from its first `n` bytes, whatever comes behind them, and
nothing is got from fewer. So a save that is broken off never leaves a table. -/
theorem torn_file_refused :
    (∀ (source rest : Source) (p : Persisted α), (Persisted.read source).result = .ok (p, rest) →
      ∃ n ≤ source.bytes.length, rest = ⟨source.bytes.drop n, source.ending⟩ ∧
        (∀ tail ending, (Persisted.read ⟨source.bytes.take n ++ tail, ending⟩).result =
          .ok (p, ⟨tail, ending⟩)) ∧
        (∀ k < n, ∃ flaw, Refused α ⟨source.bytes.take k, .endOfData⟩ (.malformed flaw)) ∧
        ∀ k < n, ∀ fault, Refused α ⟨source.bytes.take k, .failing fault⟩ (.io fault)) ∧
    ∀ [LawfulItem α] (t : Table α) (bytes : List UInt8), t.Reachable → t.numItems < 2 ^ 63 →
      t.width < 2 ^ 63 → t.matrix.data.length < 2 ^ 63 → (t.save none).result = .ok bytes →
      ∀ k < bytes.length, ∀ ending, ∃ e, Refused α ⟨bytes.take k, ending⟩ e := by
  constructor
  · intro source rest p h
    obtain ⟨front, rfl, hreads, htorn⟩ := delimits_of_read h
    have htake : ∀ k ≤ front.length, (rest.behind front).bytes.take k = front.take k :=
      fun k hk => List.take_append_of_le_length hk
    refine ⟨front.length, by simp [Source.behind], by simp [Source.behind], ?_, ?_, ?_⟩
    · intro tail ending
      rw [htake _ (Nat.le_refl _), List.take_length, Persisted.result_read]
      exact hreads tail ending
    · intro k hk
      rw [htake k (Nat.le_of_lt hk)]
      exact (refused_of_torn (htorn k hk)).1
    · intro k hk
      rw [htake k (Nat.le_of_lt hk)]
      exact (refused_of_torn (htorn k hk)).2
  · intro _ t bytes h hr hc hb hs k hk ending
    have hne := h.coherent.read_torn_save_ne_ok hr hc hb hs hk ending
    cases hread : (Persisted.read ⟨bytes.take k, ending⟩ :
      Run Event Error (Persisted α × Source)).result with
    | error e => exact ⟨e, refused_of_read hread⟩
    | ok x => exact absurd hread (hne x)

theorem exists_read_oneItem : ∃ p : Persisted UInt32,
    (Persisted.read (Persisted.oneItem 0)).result = .ok (p, ⟨[], .endOfData⟩) := by
  have h : Prod.snd <$> (Persisted.read (Persisted.oneItem 0) :
      Run Event Error (Persisted UInt32 × Source)).result = .ok ⟨[], .endOfData⟩ := by
    cbv
  obtain ⟨⟨p, rest⟩, hp, rfl⟩ := except_map_eq_ok.mp h
  exact ⟨p, hp⟩

/-- The file of one item with anything behind it, and cut short anywhere; and the file of a
transposed table, cut short anywhere. -/
theorem torn_oneItem :
    (∃ p : Persisted UInt32, ∀ tail ending,
      (Persisted.read ⟨(Persisted.oneItem 0).bytes ++ tail, ending⟩).result =
        .ok (p, ⟨tail, ending⟩)) ∧
    (∀ k < (Persisted.oneItem 0).bytes.length, ∃ flaw,
      Refused UInt32 ⟨(Persisted.oneItem 0).bytes.take k, .endOfData⟩ (.malformed flaw)) ∧
    ∃ bytes, (transposed.save none).result = .ok bytes ∧
      ∀ k < bytes.length, ∀ ending, ∃ e, Refused UInt64 ⟨bytes.take k, ending⟩ e := by
  obtain ⟨p, hp⟩ := exists_read_oneItem
  obtain ⟨n, hle, hrest, hread, htorn, -⟩ := torn_file_refused.1 _ _ _ hp
  have hn : n = (Persisted.oneItem 0).bytes.length :=
    Nat.le_antisymm hle (List.drop_eq_nil_iff.mp (Source.mk.inj hrest).1.symm)
  subst hn
  rw [List.take_length] at hread
  refine ⟨⟨p, hread⟩, htorn, ?_⟩
  have hi : ∀ e ∈ transposed.entries, (Item.encode e.1).length ≤ Wire.maxBytes := by
    intro e _
    rw [Item.length_encode_uint64]
    decide
  obtain ⟨bytes, hs, -⟩ :=
    reachable_transposed.coherent.save_eq_ok hi (by decide) (by decide) (by decide)
  exact ⟨bytes, hs, torn_file_refused.2 transposed bytes reachable_transposed (by decide)
    (by decide) (by decide) hs⟩

end VectorTable.Table
