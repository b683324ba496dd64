import VectorTable.Index
import VectorTable.Migration
import VectorTable.Proofs.Codec

/-! An index numbers its items one to one. `Assigned low high` is what entries in
any order have to satisfy, `Valid` is what every index satisfies that was built
from items or from entries; in a valid index the two look-ups are inverse to each
other. -/
namespace VectorTable

variable {α : Type}

/-- Slots in `low ..< high`; no item and no slot comes twice. -/
structure Assigned (low high : Nat) (entries : List (α × Slot)) : Prop where
  range : ∀ e ∈ entries, low ≤ e.2.toNat ∧ e.2.toNat < high
  items_nodup : (entries.map Prod.fst).Nodup
  slots_nodup : (entries.map Prod.snd).Nodup

namespace Assigned

variable {low high : Nat} {entries entries' : List (α × Slot)}

theorem nil : Assigned low high ([] : List (α × Slot)) := ⟨by simp, by simp, by simp⟩

theorem cons_iff {e : α × Slot} : Assigned low high (e :: entries) ↔
    (low ≤ e.2.toNat ∧ e.2.toNat < high) ∧ e.1 ∉ entries.map Prod.fst ∧
      e.2 ∉ entries.map Prod.snd ∧ Assigned low high entries := by
  constructor
  · rintro ⟨hr, hi, hs⟩
    rw [List.map_cons, List.nodup_cons] at hi hs
    rw [List.forall_mem_cons] at hr
    exact ⟨hr.1, hi.1, hs.1, hr.2, hi.2, hs.2⟩
  · rintro ⟨hr, hi, hs, h⟩
    refine ⟨List.forall_mem_cons.mpr ⟨hr, h.range⟩, ?_, ?_⟩
    · exact List.nodup_cons.mpr ⟨hi, h.items_nodup⟩
    · exact List.nodup_cons.mpr ⟨hs, h.slots_nodup⟩

theorem perm (hp : entries.Perm entries') (h : Assigned low high entries) :
    Assigned low high entries' :=
  ⟨fun e he => h.range e (hp.mem_iff.mpr he), (hp.map _).nodup_iff.mp h.items_nodup,
    (hp.map _).nodup_iff.mp h.slots_nodup⟩

/-- The empty range has no slots. -/
theorem eq_nil (h : Assigned low high entries) (hr : high ≤ low) : entries = [] := by
  cases entries with
  | nil => rfl
  | cons e rest =>
    have := h.range e (by simp)
    omega

/-- There are no more entries than slots. -/
theorem length_le (h : Assigned low high entries) : entries.length ≤ high - low := by
  have hn : (entries.map fun e => e.2.toNat).Nodup := by
    have := h.slots_nodup.map (f := UInt32.toNat) fun _ _ => UInt32.toNat_inj.mp
    rwa [List.map_map] at this
  have hs : (entries.map fun e => e.2.toNat) ⊆ List.range' low (high - low) := by
    intro n hm
    obtain ⟨e, he, rfl⟩ := List.mem_map.mp hm
    have hr := h.range e he
    rw [List.mem_range'_1]
    omega
  simpa using (List.subperm_of_subset hn hs).length_le

end Assigned

namespace Migration

/-- An entry one slot up. -/
def shift (e : α × Slot) : α × Slot := (e.1, e.2 + 1)

theorem toNat_shift {e : α × Slot} (h : e.2 < maxSlot) : (shift e).2.toNat = e.2.toNat + 1 := by
  have h' : e.2.toNat < 0x7FFFFFFF := UInt32.lt_iff_toNat_lt.mp h
  simp only [shift, UInt32.toNat_add]
  simp
  omega

theorem shiftSlots_eq_ok {entries entries' : List (α × Slot)} :
    shiftSlots entries = .ok entries' ↔
      (∀ e ∈ entries, e.2 < maxSlot) ∧ entries' = entries.map shift := by
  induction entries generalizing entries' with
  | nil => simp [shiftSlots, eq_comm]
  | cons e rest ih =>
    obtain ⟨item, slot⟩ := e
    rw [shiftSlots, List.forall_mem_cons]
    split_ifs with h
    · have h' : ¬ slot < maxSlot := UInt32.not_lt.mpr h
      simp [h']
    · have h' : slot < maxSlot := UInt32.not_le.mp h
      rw [except_map_eq_ok]
      constructor
      · rintro ⟨rest', hr, rfl⟩
        obtain ⟨hb, rfl⟩ := ih.mp hr
        exact ⟨⟨h', hb⟩, rfl⟩
      · rintro ⟨⟨-, hb⟩, rfl⟩
        exact ⟨rest.map shift, ih.mpr ⟨hb, rfl⟩, rfl⟩

/-- Slots from 0 up to a bound are free of overlaps exactly if the slots above
them are, from 1 up to the next bound. -/
theorem assigned_map_shift {entries : List (α × Slot)} (h : ∀ e ∈ entries, e.2 < maxSlot)
    {high : Nat} : Assigned 1 (high + 1) (entries.map shift) ↔ Assigned 0 high entries := by
  induction entries with
  | nil => exact ⟨fun _ => Assigned.nil, fun _ => Assigned.nil⟩
  | cons e rest ih =>
    rw [List.forall_mem_cons] at h
    have hi : (rest.map shift).map Prod.fst = rest.map Prod.fst := by simp [shift]
    have hs : (shift e).2 ∈ (rest.map shift).map Prod.snd ↔ e.2 ∈ rest.map Prod.snd := by
      simp [shift]
    rw [List.map_cons, Assigned.cons_iff, Assigned.cons_iff, ih h.2, hi, hs, toNat_shift h.1]
    simp only [shift]
    constructor
    · rintro ⟨hr, h'⟩
      exact ⟨by omega, h'⟩
    · rintro ⟨hr, h'⟩
      exact ⟨by omega, h'⟩

end Migration

/-- Where keys are distinct, a search by key finds the entry that has it. -/
theorem find?_eq_some_iff_of_nodup {β κ : Type} [DecidableEq κ] {f : β → κ} {l : List β} {b : β}
    {k : κ} (h : (l.map f).Nodup) :
    (l.find? fun a => f a = k) = some b ↔ b ∈ l ∧ f b = k := by
  induction l with
  | nil => simp
  | cons a l ih =>
    rw [List.map_cons, List.nodup_cons] at h
    obtain ⟨ha, hl⟩ := h
    rw [List.find?_cons]
    by_cases hk : f a = k
    · simp only [hk, decide_true, Option.some.injEq, List.mem_cons]
      constructor
      · rintro rfl
        exact ⟨Or.inl rfl, hk⟩
      · rintro ⟨rfl | hb, hbk⟩
        · rfl
        · exact absurd (List.mem_map.mpr ⟨b, hb, hbk.trans hk.symm⟩) ha
    · simp only [hk, decide_false, ih hl, List.mem_cons]
      constructor
      · rintro ⟨hb, hbk⟩
        exact ⟨Or.inr hb, hbk⟩
      · rintro ⟨rfl | hb, hbk⟩
        · exact absurd hbk hk
        · exact ⟨hb, hbk⟩

/-- Where keys are distinct, a look-up by key gives the value of the entry that has it. -/
theorem map_find?_eq_some {β κ ν : Type} [DecidableEq κ] {f : β → κ} {g : β → ν} {l : List β}
    {k : κ} {v : ν} (h : (l.map f).Nodup) :
    (l.find? fun a => f a = k).map g = some v ↔ ∃ b ∈ l, f b = k ∧ g b = v := by
  simp only [Option.map_eq_some_iff, find?_eq_some_iff_of_nodup h, and_assoc]

theorem pairwise_mergeSort_slot (entries : List (α × Slot)) :
    (entries.mergeSort fun a b => a.2 ≤ b.2).Pairwise fun a b => a.2 ≤ b.2 := by
  have hs : (entries.mergeSort fun a b => a.2 ≤ b.2).Pairwise fun a b => decide (a.2 ≤ b.2) :=
    List.pairwise_mergeSort (fun a b c => by simpa using UInt32.le_trans)
      (fun a b => by simpa using UInt32.le_total a.2 b.2) entries
  exact hs.imp of_decide_eq_true

theorem toNat_ofNat_slot {n : Nat} (h : n ≤ maxSlot.toNat) : (UInt32.ofNat n).toNat = n := by
  have hmax : maxSlot.toNat = 2147483647 := rfl
  exact UInt32.toNat_ofNat_of_lt' (show n < 2 ^ 32 by omega)

/-- The next slot is the count itself, as long as a file can hold it. -/
theorem nextSlot?_of_le {n : Nat} (h : n ≤ maxSlot.toNat) : nextSlot? n = some (UInt32.ofNat n) := by
  have hmax : maxSlot.toNat = 2147483647 := rfl
  have hslot : UInt32.ofNat n ≤ maxSlot := by
    rwa [UInt32.le_iff_toNat_le, toNat_ofNat_slot h]
  rw [nextSlot?, if_pos (by omega), Option.filter_some, if_pos (decide_eq_true hslot)]

theorem nextSlot?_of_lt {n : Nat} (h : maxSlot.toNat < n) : nextSlot? n = none := by
  unfold nextSlot?
  split_ifs with hword
  · have hslot : ¬ UInt32.ofNat n ≤ maxSlot := by
      rw [UInt32.le_iff_toNat_le, UInt32.toNat_ofNat_of_lt' hword]
      exact Nat.not_le.mpr h
    rw [Option.filter_some, decide_eq_false hslot, if_neg Bool.false_ne_true]
  · rfl

namespace Index

structure Valid (i : Index α) : Prop where
  numItems_pos : 1 ≤ i.numItems
  assigned : Assigned 1 i.numItems i.entries
  sorted : i.entries.Pairwise fun a b => a.2 ≤ b.2

theorem valid_empty : (empty : Index α).Valid := ⟨Nat.le_refl 1, Assigned.nil, by simp [empty]⟩

theorem Valid.slot_ne {i : Index α} (h : i.Valid) {e : α × Slot} (he : e ∈ i.entries) :
    e.2 ≠ reservedSlot := by
  intro h0
  have hr := (h.assigned.range e he).1
  rw [h0] at hr
  cases hr

theorem Valid.item?_eq_some {i : Index α} (h : i.Valid) {slot : Slot} {item : α} :
    i.item? slot = some item ↔ (item, slot) ∈ i.entries := by
  unfold item?
  split_ifs with h0
  · constructor
    · intro hn
      cases hn
    · intro hm
      exact absurd h0 (h.slot_ne hm)
  · rw [map_find?_eq_some h.assigned.slots_nodup]
    simp

/-- In a valid index the count is a slot that no entry has. -/
theorem Valid.next_not_mem {i : Index α} (h : i.Valid) (hle : i.numItems ≤ maxSlot.toNat) :
    UInt32.ofNat i.numItems ∉ i.entries.map Prod.snd := by
  intro hm
  obtain ⟨e, he, hs⟩ := List.mem_map.mp hm
  have hr := (h.assigned.range e he).2
  rw [hs, toNat_ofNat_slot hle] at hr
  exact Nat.lt_irrefl _ hr

/-- An index that was filled item by item: its slots are given out in a row. -/
structure Dense (i : Index α) : Prop where
  valid : i.Valid
  numItems_eq : i.numItems = i.size + 1
  numItems_le : i.numItems ≤ maxSlot.toNat + 1

theorem dense_empty : (empty : Index α).Dense := ⟨valid_empty, rfl, Nat.le_add_left 1 _⟩

theorem Dense.slot_le {i : Index α} (h : i.Dense) {e : α × Slot} (he : e ∈ i.entries) :
    e.2 ≤ maxSlot := by
  have hr := (h.valid.assigned.range e he).2
  have hn := h.numItems_le
  exact UInt32.le_iff_toNat_le.mpr (by omega)

variable [DecidableEq α]

theorem Valid.slot?_eq_some {i : Index α} (h : i.Valid) {item : α} {slot : Slot} :
    i.slot? item = some slot ↔ (item, slot) ∈ i.entries := by
  rw [slot?, map_find?_eq_some h.assigned.items_nodup]
  simp

theorem Valid.not_mem_of_slot?_none {i : Index α} (h : i.Valid) {item : α}
    (hn : i.slot? item = none) : item ∉ i.entries.map Prod.fst := by
  intro hm
  obtain ⟨⟨x, slot⟩, he, rfl⟩ := List.mem_map.mp hm
  rw [h.slot?_eq_some.mpr he] at hn
  cases hn

theorem insert_eq_ok {i j : Index α} {item : α} {slot : Slot} :
    i.insert item = .ok (slot, j) ↔ (i.slot? item = some slot ∧ j = i) ∨
      (i.slot? item = none ∧ i.numItems ≤ maxSlot.toNat ∧ slot = UInt32.ofNat i.numItems ∧
        j = ⟨i.entries ++ [(item, slot)], i.numItems + 1⟩) := by
  unfold insert
  split
  · rename_i found hs
    simp only [hs, Except.ok.injEq, Prod.mk.injEq, Option.some.injEq, reduceCtorEq, false_and,
      or_false, eq_comm (a := j)]
  · rename_i hn
    by_cases hle : i.numItems ≤ maxSlot.toNat
    · simp only [nextSlot?_of_le hle, hn, hle, Except.ok.injEq, Prod.mk.injEq, reduceCtorEq,
        false_and, false_or, true_and, eq_comm (a := slot), eq_comm (a := j)]
      constructor
      · rintro ⟨rfl, rfl⟩
        exact ⟨rfl, rfl⟩
      · rintro ⟨rfl, rfl⟩
        exact ⟨rfl, rfl⟩
    · simp [nextSlot?_of_lt (Nat.not_le.mp hle), hn, hle]

theorem Valid.insert {i j : Index α} (h : i.Valid) {item : α} {slot : Slot}
    (hi : i.insert item = .ok (slot, j)) : j.Valid := by
  obtain ⟨-, rfl⟩ | ⟨hn, hle, rfl, rfl⟩ := insert_eq_ok.mp hi
  · exact h
  · have hslot := toNat_ofNat_slot hle
    have hpos := h.numItems_pos
    have hold : Assigned 1 (i.numItems + 1) i.entries :=
      ⟨fun e he => ⟨(h.assigned.range e he).1, Nat.lt_succ_of_lt (h.assigned.range e he).2⟩,
        h.assigned.items_nodup, h.assigned.slots_nodup⟩
    refine ⟨Nat.le_add_left _ _, ?_, ?_⟩
    · refine Assigned.perm (List.perm_append_singleton _ _).symm (Assigned.cons_iff.mpr ?_)
      exact ⟨⟨by dsimp only; omega, by dsimp only; omega⟩, h.not_mem_of_slot?_none hn,
        h.next_not_mem hle, hold⟩
    · rw [List.pairwise_append]
      refine ⟨h.sorted, List.pairwise_singleton _ _, ?_⟩
      intro e he a ha
      rw [List.mem_singleton.mp ha, UInt32.le_iff_toNat_le, hslot]
      exact Nat.le_of_lt (h.assigned.range e he).2

/-- One more item gets the first slot that was not in use. -/
theorem Dense.insert {i j : Index α} (h : i.Dense) {item : α} {slot : Slot}
    (hi : i.insert item = .ok (slot, j)) : j.Dense := by
  have hv := h.valid.insert hi
  obtain ⟨-, rfl⟩ | ⟨-, hle, -, rfl⟩ := insert_eq_ok.mp hi
  · exact h
  · exact ⟨hv, by simp [size, h.numItems_eq], Nat.succ_le_succ hle⟩

section Entries

variable [Item α]

theorem Dense.addAll {items : List α} {i j : Index α} (h : i.Dense)
    (hr : (i.addAll items).result = .ok j) : j.Dense := by
  induction items generalizing i with
  | nil =>
    cases hr
    exact h
  | cons item rest ih =>
    unfold Index.addAll at hr
    split_ifs at hr
    · obtain ⟨-, -, hr⟩ := Run.bind_eq_ok.mp hr
      exact ih h hr
    · obtain ⟨⟨slot, next⟩, hi, hr⟩ := Run.bind_eq_ok.mp hr
      exact ih (h.insert hi) hr

theorem dense_of_ofItems {items : List α} {i : Index α} (h : (ofItems items).result = .ok i) :
    i.Dense :=
  dense_empty.addAll h

theorem accept_eq_ok {numItems : Nat} {accepted : List (α × Slot)} {e : α × Slot} :
    accept numItems accepted e = .ok () ↔
      (1 ≤ e.2.toNat ∧ e.2.toNat < numItems) ∧ e.1 ∉ accepted.map Prod.fst ∧
        e.2 ∉ accepted.map Prod.snd := by
  have h0 : e.2 = reservedSlot ↔ e.2.toNat = 0 := UInt32.toNat_inj.symm
  have hs : (accepted.any fun a => a.2 = e.2) = true ↔ e.2 ∈ accepted.map Prod.snd := by simp
  have hi : (accepted.any fun a => a.1 = e.1) = true ↔ e.1 ∈ accepted.map Prod.fst := by simp
  unfold accept
  simp only [h0, hs, hi]
  split_ifs with hr ht hd
  · simp only [false_iff]
    omega
  · simp [ht]
  · simp [hd]
  · simp only [true_iff]
    exact ⟨by omega, hd, ht⟩

theorem acceptAll_eq_ok {numItems : Nat} {accepted entries : List (α × Slot)} :
    acceptAll numItems accepted entries = .ok () ↔ Assigned 1 numItems entries ∧
      ∀ e ∈ entries, e.1 ∉ accepted.map Prod.fst ∧ e.2 ∉ accepted.map Prod.snd := by
  induction entries generalizing accepted with
  | nil => simp [acceptAll, Assigned.nil]
  | cons e rest ih =>
    have hfresh : (∀ x ∈ rest, x.1 ∉ (e :: accepted).map Prod.fst ∧
          x.2 ∉ (e :: accepted).map Prod.snd) ↔
        (e.1 ∉ rest.map Prod.fst ∧ e.2 ∉ rest.map Prod.snd) ∧
          ∀ x ∈ rest, x.1 ∉ accepted.map Prod.fst ∧ x.2 ∉ accepted.map Prod.snd := by
      simp only [List.map_cons, List.mem_cons, not_or]
      constructor
      · intro h
        refine ⟨⟨?_, ?_⟩, fun x hx => ⟨(h x hx).1.2, (h x hx).2.2⟩⟩
        · intro hm
          obtain ⟨x, hx, hxe⟩ := List.mem_map.mp hm
          exact (h x hx).1.1 hxe
        · intro hm
          obtain ⟨x, hx, hxe⟩ := List.mem_map.mp hm
          exact (h x hx).2.1 hxe
      · rintro ⟨⟨hi, hs⟩, h⟩ x hx
        refine ⟨⟨?_, (h x hx).1⟩, ⟨?_, (h x hx).2⟩⟩
        · intro hxe
          exact hi (List.mem_map.mpr ⟨x, hx, hxe⟩)
        · intro hxe
          exact hs (List.mem_map.mpr ⟨x, hx, hxe⟩)
    rw [acceptAll, except_seq_eq_ok, accept_eq_ok, ih, hfresh, Assigned.cons_iff,
      List.forall_mem_cons]
    constructor
    · rintro ⟨⟨hr, he⟩, h, ⟨hi, hs⟩, ha⟩
      exact ⟨⟨hr, hi, hs, h⟩, he, ha⟩
    · rintro ⟨⟨hr, hi, hs, h⟩, he, ha⟩
      exact ⟨⟨hr, he⟩, h, ⟨hi, hs⟩, ha⟩

/-- Entries make an index exactly if every slot lies among those in use and
nothing comes twice; the index has them in ascending order of slot. -/
theorem ofEntries_eq_ok {entries : List (α × Slot)} {numItems : Nat} {i : Index α} :
    ofEntries entries numItems = .ok i ↔ 1 ≤ numItems ∧ Assigned 1 numItems entries ∧
      i = ⟨entries.mergeSort fun a b => a.2 ≤ b.2, numItems⟩ := by
  unfold ofEntries
  split_ifs with h0
  · simp [h0]
  · rw [except_seq_eq_ok, acceptAll_eq_ok, Except.ok.injEq]
    constructor
    · rintro ⟨⟨ha, -⟩, rfl⟩
      exact ⟨by omega, ha, rfl⟩
    · rintro ⟨-, ha, rfl⟩
      exact ⟨⟨ha, by simp⟩, rfl⟩

theorem accept_eq_error {numItems : Nat} {accepted : List (α × Slot)} {e : α × Slot} {error : Error}
    (h : accept numItems accepted e = .error error) : ∃ flaw, error = .malformed flaw := by
  unfold accept at h
  split_ifs at h
  · cases h
    exact ⟨_, rfl⟩
  · cases h
    exact ⟨_, rfl⟩
  · cases h
    exact ⟨_, rfl⟩

theorem acceptAll_eq_error {numItems : Nat} {accepted entries : List (α × Slot)} {error : Error}
    (h : acceptAll numItems accepted entries = .error error) : ∃ flaw, error = .malformed flaw := by
  induction entries generalizing accepted with
  | nil => cases h
  | cons e rest ih =>
    rw [acceptAll] at h
    rcases except_bind_eq_error.mp h with ha | ⟨_, -, hr⟩
    · exact accept_eq_error ha
    · exact ih hr

/-- Entries that make no index are a flaw of the data. -/
theorem ofEntries_eq_error {entries : List (α × Slot)} {numItems : Nat} {error : Error}
    (h : ofEntries entries numItems = .error error) : ∃ flaw, error = .malformed flaw := by
  unfold ofEntries at h
  split_ifs at h
  · cases h
    exact ⟨_, rfl⟩
  · rcases except_bind_eq_error.mp h with ha | ⟨_, -, h⟩
    · exact acceptAll_eq_error ha
    · cases h

variable {entries : List (α × Slot)} {numItems : Nat} {i : Index α}

theorem perm_of_ofEntries (h : ofEntries entries numItems = .ok i) : i.entries.Perm entries := by
  obtain ⟨-, -, rfl⟩ := ofEntries_eq_ok.mp h
  exact List.mergeSort_perm _ _

theorem numItems_of_ofEntries (h : ofEntries entries numItems = .ok i) : i.numItems = numItems := by
  obtain ⟨-, -, rfl⟩ := ofEntries_eq_ok.mp h
  rfl

theorem valid_of_ofEntries (h : ofEntries entries numItems = .ok i) : i.Valid := by
  obtain ⟨hn, ha, rfl⟩ := ofEntries_eq_ok.mp h
  exact ⟨hn, ha.perm (List.mergeSort_perm _ _).symm, pairwise_mergeSort_slot entries⟩

/-- Entries that are in order stay as they are. -/
theorem entries_of_ofEntries (h : ofEntries entries numItems = .ok i)
    (hs : entries.Pairwise fun a b => a.2 ≤ b.2) : i = ⟨entries, numItems⟩ := by
  obtain ⟨-, -, rfl⟩ := ofEntries_eq_ok.mp h
  rw [List.mergeSort_of_pairwise (hs.imp decide_eq_true)]

/-- An index takes another count exactly if all its slots stay below it. -/
theorem Valid.ofEntries_eq_ok_iff (h : i.Valid) (hn : 1 ≤ numItems) {j : Index α} :
    ofEntries i.entries numItems = .ok j ↔
      (∀ e ∈ i.entries, e.2.toNat < numItems) ∧ j = ⟨i.entries, numItems⟩ := by
  constructor
  · intro hj
    obtain ⟨-, ha, -⟩ := ofEntries_eq_ok.mp hj
    exact ⟨fun e he => (ha.range e he).2, entries_of_ofEntries hj h.sorted⟩
  · rintro ⟨hr, rfl⟩
    have ha : Assigned 1 numItems i.entries :=
      ⟨fun e he => ⟨(h.assigned.range e he).1, hr e he⟩, h.assigned.items_nodup,
        h.assigned.slots_nodup⟩
    have hj := ofEntries_eq_ok.mpr ⟨hn, ha, rfl⟩
    rwa [entries_of_ofEntries hj h.sorted] at hj

theorem Valid.ofEntries_entries (h : i.Valid) : ofEntries i.entries i.numItems = .ok i :=
  (h.ofEntries_eq_ok_iff h.numItems_pos).mpr ⟨fun e he => (h.assigned.range e he).2, rfl⟩

end Entries

end Index
end VectorTable
