import VectorTable.ItemMaps
import VectorTable.Proofs.Assignment

/-! Two maps for one index. As long as the maps hold the same pairs, one of them the other way
round, they are looked up, listed and added to as the one list of an index is, and each way to
make them or to add to them keeps the pairs the same. So whatever is true of an index is true of
the maps. -/
namespace VectorTable

namespace FiniteMap

variable {κ ν : Type} [DecidableEq κ] {m : FiniteMap κ ν} {key : κ}

theorem get?_eq_some (h : (m.map Prod.fst).Nodup) {value : ν} :
    m.get? key = some value ↔ (key, value) ∈ m := by
  rw [get?, map_find?_eq_some h]
  simp

theorem get?_eq_none : m.get? key = none ↔ key ∉ m.map Prod.fst := by
  rw [get?, Option.map_eq_none_iff, List.find?_eq_none]
  constructor
  · intro h hm
    obtain ⟨e, he, hk⟩ := List.mem_map.mp hm
    exact h e he (decide_eq_true hk)
  · intro h e he hk
    exact h (List.mem_map.mpr ⟨e, he, of_decide_eq_true hk⟩)

theorem contains_iff : m.contains key = true ↔ key ∈ m.map Prod.fst := by
  rw [contains, ← Option.not_isNone, Bool.not_eq_true', Option.isNone_eq_false_iff,
    Option.isSome_iff_ne_none, ne_eq, get?_eq_none, not_not]

/-- A key that is new takes no other pair away. -/
theorem put_of_new (h : key ∉ m.map Prod.fst) (value : ν) : m.put key value = (key, value) :: m := by
  rw [put, List.filter_eq_self.mpr]
  intro e he
  exact decide_eq_true fun hk => h (List.mem_map.mpr ⟨e, he, hk⟩)

end FiniteMap

namespace ItemMaps

variable {α : Type}

/-- The index that the maps stand for. -/
def view (m : ItemMaps α) : Index α := ⟨m.entries, m.numItems⟩

/-- Both maps hold the same pairs, and these are such as an index has. -/
structure Paired (m : ItemMaps α) : Prop where
  numItems_pos : 1 ≤ m.numItems
  assigned : Assigned 1 m.numItems m.forward
  inverse : m.backward.Perm (m.forward.map Prod.swap)

theorem paired_empty : (empty : ItemMaps α).Paired := ⟨Nat.le_refl 1, .nil, .nil⟩

theorem view_empty : (empty : ItemMaps α).view = Index.empty := by
  simp [view, entries, empty, Index.empty]

theorem perm_entries (m : ItemMaps α) : m.entries.Perm m.forward := List.mergeSort_perm _ _

/-- The maps with an item more, in the slot that the count names. -/
def joined (m : ItemMaps α) (item : α) : ItemMaps α :=
  ⟨(item, UInt32.ofNat m.numItems) :: m.forward, (UInt32.ofNat m.numItems, item) :: m.backward,
    m.numItems + 1⟩

namespace Paired

variable {m : ItemMaps α} (h : m.Paired)
include h

theorem view_valid : m.view.Valid :=
  ⟨h.numItems_pos, h.assigned.perm m.perm_entries.symm, pairwise_mergeSort_slot m.forward⟩

/-- The keys of the second map are the values of the first. -/
theorem slots_perm : (m.backward.map Prod.fst).Perm (m.forward.map Prod.snd) := by
  have hp := h.inverse.map Prod.fst
  rwa [List.map_map] at hp

theorem backward_nodup : (m.backward.map Prod.fst).Nodup :=
  h.slots_perm.nodup_iff.mpr h.assigned.slots_nodup

theorem mem_backward {item : α} {slot : Slot} :
    (slot, item) ∈ m.backward ↔ (item, slot) ∈ m.forward := by
  rw [h.inverse.mem_iff, List.mem_map]
  constructor
  · rintro ⟨⟨item', slot'⟩, hm, he⟩
    cases he
    exact hm
  · intro hm
    exact ⟨(item, slot), hm, rfl⟩

variable [DecidableEq α]

theorem slot?_view (item : α) : m.view.slot? item = m.slot? item := by
  refine Option.ext fun slot => ?_
  rw [h.view_valid.slot?_eq_some, slot?, FiniteMap.get?_eq_some h.assigned.items_nodup]
  exact m.perm_entries.mem_iff

omit [DecidableEq α] in
theorem item?_view (slot : Slot) : m.view.item? slot = m.item? slot := by
  unfold item?
  split_ifs with h0
  · exact if_pos h0
  · refine Option.ext fun item => ?_
    rw [h.view_valid.item?_eq_some, FiniteMap.get?_eq_some h.backward_nodup, h.mem_backward]
    exact m.perm_entries.mem_iff

theorem contains_view (item : α) : m.view.contains item = m.contains item := by
  rw [Index.contains, h.slot?_view]
  rfl

/-- A new pair goes in front of both maps. -/
theorem assign_of_new {item : α} {slot : Slot} (hi : item ∉ m.forward.map Prod.fst)
    (hs : slot ∉ m.forward.map Prod.snd) : m.assign item slot =
      ⟨(item, slot) :: m.forward, (slot, item) :: m.backward, m.numItems⟩ := by
  have hs : slot ∉ m.backward.map Prod.fst := fun hm => hs (h.slots_perm.mem_iff.mp hm)
  rw [assign, FiniteMap.put_of_new hi, FiniteMap.put_of_new hs]

section Joined

variable {item : α} (hn : m.slot? item = none) (hle : m.numItems ≤ maxSlot.toNat)
include hn hle

theorem insert_of_new : m.insert item = .ok (UInt32.ofNat m.numItems, m.joined item) := by
  have hnew : UInt32.ofNat m.numItems ∉ m.forward.map Prod.snd := fun hm =>
    h.view_valid.next_not_mem hle ((m.perm_entries.map Prod.snd).mem_iff.mpr hm)
  have hassign := h.assign_of_new (FiniteMap.get?_eq_none.mp hn) hnew
  unfold insert
  rw [show m.forward.get? item = none from hn, nextSlot?_of_le hle]
  dsimp only
  rw [hassign]
  rfl

theorem insert_view_of_new : m.view.insert item =
    .ok (UInt32.ofNat m.numItems, ⟨m.entries ++ [(item, UInt32.ofNat m.numItems)], m.numItems + 1⟩) :=
  Index.insert_eq_ok.mpr (.inr ⟨(h.slot?_view item).trans hn, hle, rfl, rfl⟩)

theorem joined_paired : (m.joined item).Paired := by
  have hassigned := (h.view_valid.insert (h.insert_view_of_new hn hle)).assigned
  refine ⟨Nat.le_add_left _ _, hassigned.perm ?_, h.inverse.cons _⟩
  exact (List.perm_append_singleton _ _).trans (m.perm_entries.cons _)

/-- The new slot is the greatest, so the listing has it at the end, where the index has it. -/
theorem view_joined : (m.joined item).view =
    ⟨m.entries ++ [(item, UInt32.ofNat m.numItems)], m.numItems + 1⟩ := by
  have hvalid := h.view_valid.insert (h.insert_view_of_new hn hle)
  refine (h.joined_paired hn hle).view_valid.eq_of_perm hvalid rfl ?_
  have hadd : (m.entries ++ [(item, UInt32.ofNat m.numItems)]).Perm (m.joined item).forward :=
    (List.perm_append_singleton _ _).trans (m.perm_entries.cons _)
  exact (perm_entries _).trans hadd.symm

end Joined

/-- What an insertion does to maps: nothing, or one more pair in each of them. -/
theorem insert_cases (item : α) :
    (∃ slot, m.slot? item = some slot ∧ m.insert item = .ok (slot, m)) ∨
    (m.slot? item = none ∧ m.numItems ≤ maxSlot.toNat ∧
      m.insert item = .ok (UInt32.ofNat m.numItems, m.joined item)) ∨
    (m.slot? item = none ∧ maxSlot.toNat < m.numItems ∧
      m.insert item = .error (.slotsExhausted m.numItems)) := by
  cases hs : m.slot? item with
  | some slot =>
    refine .inl ⟨slot, rfl, ?_⟩
    rw [insert, show m.forward.get? item = some slot from hs]
  | none =>
    rcases Nat.lt_or_ge maxSlot.toNat m.numItems with hlt | hle
    · refine .inr (.inr ⟨rfl, hlt, ?_⟩)
      rw [insert, show m.forward.get? item = none from hs, nextSlot?_of_lt hlt]
    · exact .inr (.inl ⟨rfl, hle, h.insert_of_new hs hle⟩)

theorem insert {item : α} {slot : Slot} {next : ItemMaps α}
    (hi : m.insert item = .ok (slot, next)) : next.Paired := by
  rcases h.insert_cases item with ⟨_, -, he⟩ | ⟨hn, hle, he⟩ | ⟨-, -, he⟩
  · cases hi.symm.trans he
    exact h
  · cases hi.symm.trans he
    exact h.joined_paired hn hle
  · cases hi.symm.trans he

/-- To insert into the maps and to insert into the index come to the same. -/
theorem insert_view (item : α) : Prod.map id view <$> m.insert item = m.view.insert item := by
  have hslot := h.slot?_view item
  rcases h.insert_cases item with ⟨slot, hs, he⟩ | ⟨hn, hle, he⟩ | ⟨hn, hlt, he⟩
  · rw [hs] at hslot
    rw [he, Index.insert_eq_ok.mpr (.inl ⟨hslot, rfl⟩)]
    rfl
  · rw [he, h.insert_view_of_new hn hle, ← h.view_joined hn hle]
    rfl
  · rw [hn] at hslot
    rw [he, Index.insert, hslot, show m.view.numItems = m.numItems from rfl, nextSlot?_of_lt hlt]
    rfl

variable [Item α]

/-- Whatever is added, the warnings are the same, and so is what comes of it. The induction is on
the items, with the maps left open. -/
theorem addAll_view (items : List α) : view <$> m.addAll items = m.view.addAll items := by
  induction items generalizing m with
  | nil => rfl
  | cons item rest ih =>
    unfold ItemMaps.addAll Index.addAll
    rw [h.contains_view]
    split_ifs
    · rw [Run.map_bind, ih h]
    · rw [Run.map_bind, ← h.insert_view]
      cases hi : m.insert item with
      | error e => rfl
      | ok x => exact ih (h.insert hi)

end Paired

variable [DecidableEq α] [Item α]

theorem view_ofItems (items : List α) : view <$> ofItems items = Index.ofItems items := by
  rw [ofItems, paired_empty.addAll_view, view_empty]
  rfl

theorem paired_of_addAll {m next : ItemMaps α} {items : List α} (h : m.Paired)
    (hr : (m.addAll items).result = .ok next) : next.Paired := by
  induction items generalizing m with
  | nil =>
    cases hr
    exact h
  | cons item rest ih =>
    unfold addAll at hr
    split_ifs at hr
    · obtain ⟨-, -, hr⟩ := Run.bind_eq_ok.mp hr
      exact ih h hr
    · obtain ⟨⟨slot, next⟩, hi, hr⟩ := Run.bind_eq_ok.mp hr
      exact ih (h.insert hi) hr

/-- Maps that hold the entries accepted so far. -/
def holding (accepted : List (α × Slot)) (numItems : Nat) : ItemMaps α :=
  ⟨accepted, accepted.map Prod.swap, numItems⟩

variable {accepted entries : List (α × Slot)} {numItems : Nat}

theorem accept_holding (e : α × Slot) :
    (holding accepted numItems).accept e = Index.accept numItems accepted e := by
  have hs : (holding accepted numItems).backward.contains e.2 =
      accepted.any fun a => a.2 = e.2 := by
    rw [Bool.eq_iff_iff, FiniteMap.contains_iff]
    simp [holding]
  have hi : (holding accepted numItems).forward.contains e.1 =
      accepted.any fun a => a.1 = e.1 := by
    rw [Bool.eq_iff_iff, FiniteMap.contains_iff]
    simp [holding]
  unfold accept Index.accept
  rw [hs, hi]
  rfl

/-- Accepting entries one after the other fills the maps with them. -/
theorem assignAll_holding : (holding accepted numItems).assignAll entries =
    (fun _ => holding (entries.reverse ++ accepted) numItems) <$>
      Index.acceptAll numItems accepted entries := by
  induction entries generalizing accepted with
  | nil => rfl
  | cons e rest ih =>
    unfold assignAll Index.acceptAll
    rw [accept_holding]
    cases he : Index.accept numItems accepted e with
    | error e => rfl
    | ok =>
      obtain ⟨-, hi, hs⟩ := Index.accept_eq_ok.mp he
      have hs : e.2 ∉ (accepted.map Prod.swap).map Prod.fst := by
        rw [List.map_map]
        exact hs
      have hassign : (holding accepted numItems).assign e.1 e.2 =
          holding (e :: accepted) numItems := by
        rw [assign, holding, FiniteMap.put_of_new hi, FiniteMap.put_of_new hs]
        rfl
      show ((holding accepted numItems).assign e.1 e.2).assignAll rest = _
      rw [hassign, ih, List.reverse_cons, List.append_assoc]
      rfl

omit [DecidableEq α] [Item α] in
theorem paired_holding (hn : 1 ≤ numItems) (ha : Assigned 1 numItems accepted) :
    (holding accepted numItems).Paired := ⟨hn, ha, .refl _⟩

/-- Entries that make an index make maps, which hold them. -/
theorem ofEntries_eq : ofEntries entries numItems =
    (fun _ => holding entries.reverse numItems) <$> Index.ofEntries entries numItems := by
  unfold ofEntries Index.ofEntries
  split_ifs
  · rfl
  · have hfill : (holding [] numItems).assignAll entries =
        (fun _ => holding (entries.reverse ++ []) numItems) <$> Index.acceptAll numItems [] entries :=
      assignAll_holding
    rw [List.append_nil] at hfill
    refine hfill.trans ?_
    cases Index.acceptAll numItems [] entries <;> rfl

theorem ofEntries_eq_ok {m : ItemMaps α} (h : ofEntries entries numItems = .ok m) : m.Paired ∧
    Index.ofEntries entries numItems = .ok m.view := by
  rw [ofEntries_eq] at h
  obtain ⟨i, hi, rfl⟩ := except_map_eq_ok.mp h
  obtain ⟨hn, ha, -⟩ := Index.ofEntries_eq_ok.mp hi
  have hperm : entries.reverse.Perm entries := List.reverse_perm entries
  have hpaired := paired_holding hn (ha.perm hperm.symm)
  refine ⟨hpaired, ?_⟩
  have hview : (holding entries.reverse numItems).view = i := by
    refine hpaired.view_valid.eq_of_perm (Index.valid_of_ofEntries hi) ?_ ?_
    · exact (Index.numItems_of_ofEntries hi).symm
    · exact ((perm_entries _).trans hperm).trans (Index.perm_of_ofEntries hi).symm
  rw [hview, hi]

/-- The maps of entries stand for the index of these entries. -/
theorem view_ofEntries : view <$> ofEntries entries numItems = Index.ofEntries entries numItems := by
  cases h : ofEntries entries numItems with
  | ok m => exact (ofEntries_eq_ok h).2.symm
  | error e =>
    rw [ofEntries_eq] at h
    rw [except_map_eq_error.mp h]
    rfl

/-- The maps after an attempt to insert an item; a failed attempt changes nothing. -/
def inserted (m : ItemMaps α) (item : α) : ItemMaps α :=
  match m.insert item with
  | .ok (_, next) => next
  | .error _ => m

omit [Item α] in
theorem Paired.inserted_view {m : ItemMaps α} (h : m.Paired) (item : α) :
    (m.inserted item).Paired ∧ (m.inserted item).view = m.view.inserted item := by
  have hview := h.insert_view item
  unfold inserted Index.inserted
  rw [← hview]
  cases hi : m.insert item with
  | error e => exact ⟨h, rfl⟩
  | ok x => exact ⟨h.insert hi, rfl⟩

/-- The maps that a program comes to hold: made in one of three ways, and then given items one by
one, some of them in vain. -/
inductive Reachable : ItemMaps α → Prop
  | empty : Reachable empty
  | ofItems {items : List α} {m : ItemMaps α} (h : (ofItems items).result = .ok m) : Reachable m
  | ofEntries {entries : List (α × Slot)} {numItems : Nat} {m : ItemMaps α}
      (h : ofEntries entries numItems = .ok m) : Reachable m
  | inserted {m : ItemMaps α} (h : Reachable m) (item : α) : Reachable (m.inserted item)

theorem Reachable.paired {m : ItemMaps α} (h : m.Reachable) : m.Paired := by
  induction h with
  | empty => exact paired_empty
  | ofItems h => exact paired_of_addAll paired_empty h
  | ofEntries h => exact (ofEntries_eq_ok h).1
  | inserted h item ih => exact (ih.inserted_view item).1

/-- What the maps stand for is an index that a program comes to hold. -/
theorem Reachable.view {m : ItemMaps α} (h : m.Reachable) : m.view.Reachable := by
  induction h with
  | empty => exact .made (view_empty ▸ .empty)
  | @ofItems items m h =>
    have hi : (Index.ofItems items).result = .ok m.view := by
      rw [← view_ofItems, Run.result_map, h]
      rfl
    exact .made (.ofItems hi)
  | ofEntries h => exact .made (.ofEntries (ofEntries_eq_ok h).2)
  | inserted h item ih =>
    rw [(h.paired.inserted_view item).2]
    exact ih.inserted item

/-- Maps and an index that answer alike, whatever they are asked, and go on alike. -/
structure Represents (m : ItemMaps α) (i : Index α) : Prop where
  numItems : m.numItems = i.numItems
  size : m.size = i.size
  isEmpty : m.isEmpty = i.isEmpty
  entries : m.entries = i.entries
  slot? : ∀ item, m.slot? item = i.slot? item
  item? : ∀ slot, m.item? slot = i.item? slot
  contains : ∀ item, m.contains item = i.contains item
  insert : ∀ item, Prod.map id ItemMaps.view <$> m.insert item = i.insert item

omit [Item α] in
theorem Paired.represents {m : ItemMaps α} (h : m.Paired) : m.Represents m.view where
  numItems := rfl
  size := m.perm_entries.length_eq.symm
  isEmpty := by
    rw [isEmpty, size, ← m.perm_entries.length_eq]
    cases hm : m.entries <;> simp [Index.isEmpty, view, hm]
  entries := rfl
  slot? item := (h.slot?_view item).symm
  item? slot := (h.item?_view slot).symm
  contains item := (h.contains_view item).symm
  insert := h.insert_view

/-- In whatever order a map gives its pairs away, they are listed in the same one. -/
theorem Paired.entries_of_perm {m : ItemMaps α} (h : m.Paired) {forward : FiniteMap α Slot}
    (hp : forward.Perm m.forward) : (forward.mergeSort fun a b => a.2 ≤ b.2) = m.entries := by
  have hn := h.numItems_pos
  have hother := Index.ofEntries_eq_ok.mpr ⟨hn, h.assigned.perm hp.symm, rfl⟩
  have hi := Index.ofEntries_eq_ok.mpr ⟨hn, h.assigned, rfl⟩
  have hsame := Index.ofEntries_of_perm hp hother
  exact congrArg Index.entries (Except.ok.inj (hsame.symm.trans hi))

/-- Maps that a program comes to hold stand for an index that a program comes to hold, and answer
and go on as it does, in whatever order they give their pairs away. -/
theorem reachable_represents {m : ItemMaps α} (h : m.Reachable) :
    m.view.Reachable ∧ m.Represents m.view ∧ ∀ forward : FiniteMap α Slot,
      forward.Perm m.forward → (forward.mergeSort fun a b => a.2 ≤ b.2) = m.view.entries :=
  ⟨h.view, h.paired.represents, fun _ => h.paired.entries_of_perm⟩

end ItemMaps
end VectorTable
