import Mathlib.Logic.Function.Basic
import VectorTable.Proofs.Index

/-! Indexes that change in place. A shelf holds indexes side by side: an item is inserted into
one of them, a copy of one joins the others, or a copy of one takes the place of another. Whatever
is done, every index on the shelf numbers its items one to one, an insertion does to it what
`Insertion` says, and what becomes of it is a matter of its own insertions. -/
namespace VectorTable

namespace Index

variable {α : Type} [DecidableEq α]

/-- The look-ups are two finite maps, inverse to each other, between the items and slots from 1
up to the count. -/
structure OneToOne (i : Index α) : Prop where
  numItems_pos : 1 ≤ i.numItems
  inverse : ∀ item slot, i.slot? item = some slot ↔ i.item? slot = some item
  range : ∀ item slot, i.slot? item = some slot → 1 ≤ slot.toNat ∧ slot.toNat < i.numItems
  reserved_free : i.item? reservedSlot = none ∧ ∀ item, i.slot? item ≠ some reservedSlot
  listed : ∀ item slot, i.slot? item = some slot ↔ (item, slot) ∈ i.entries
  listed_once : i.entries.Nodup

theorem Valid.oneToOne {i : Index α} (h : i.Valid) : i.OneToOne where
  numItems_pos := h.numItems_pos
  inverse _ _ := h.slot?_eq_some.trans h.item?_eq_some.symm
  range _ _ hs := h.assigned.range _ (h.slot?_eq_some.mp hs)
  reserved_free := ⟨if_pos rfl, fun _ hs => h.slot_ne (h.slot?_eq_some.mp hs) rfl⟩
  listed _ _ := h.slot?_eq_some
  listed_once := h.assigned.items_nodup.of_map

/-- An item that is there keeps its slot and nothing changes. An item that is not gets the count
as its slot, which no item had, and only the look-ups of that item and that slot change. Where
the count is beyond what a file can hold, there is no slot to give. -/
structure Insertion (i : Index α) (item : α) : Prop where
  present : ∀ slot, i.slot? item = some slot → i.insert item = .ok (slot, i)
  absent : i.slot? item = none → i.numItems ≤ maxSlot.toNat → ∃ slot j,
    i.insert item = .ok (slot, j) ∧ slot.toNat = i.numItems ∧
      (∀ other, i.slot? other ≠ some slot) ∧ j.numItems = i.numItems + 1 ∧
      j.slot? = Function.update i.slot? item (some slot) ∧
      j.item? = Function.update i.item? slot (some item)
  exhausted : i.slot? item = none → maxSlot.toNat < i.numItems →
    i.insert item = .error (.slotsExhausted i.numItems)

theorem slot?_append {i : Index α} {item : α} (hn : i.slot? item = none) (slot : Slot) (n : Nat) :
    slot? ⟨i.entries ++ [(item, slot)], n⟩ = Function.update i.slot? item (some slot) := by
  funext x
  by_cases hx : x = item
  · subst hx
    have hnone : (i.entries.find? fun e => e.1 = x) = none := Option.map_eq_none_iff.mp hn
    rw [Function.update_self, slot?, List.find?_append, hnone]
    simp
  · have hne : ¬ decide (item = x) = true := by simpa using Ne.symm hx
    rw [Function.update_of_ne hx, slot?, List.find?_append, List.find?_singleton, if_neg hne,
      Option.or_none, slot?]

omit [DecidableEq α] in
theorem item?_append {i : Index α} {slot : Slot} (h0 : slot ≠ reservedSlot)
    (hs : slot ∉ i.entries.map Prod.snd) (item : α) (n : Nat) :
    item? ⟨i.entries ++ [(item, slot)], n⟩ = Function.update i.item? slot (some item) := by
  funext s
  by_cases hx : s = slot
  · subst hx
    have hnone : (i.entries.find? fun e => e.2 = s) = none :=
      List.find?_eq_none.mpr fun e he hes =>
        hs (List.mem_map.mpr ⟨e, he, of_decide_eq_true hes⟩)
    rw [Function.update_self, item?, if_neg h0, List.find?_append, hnone]
    simp
  · have hne : ¬ decide (slot = s) = true := by simpa using Ne.symm hx
    rw [Function.update_of_ne hx, item?, List.find?_append, List.find?_singleton, if_neg hne,
      Option.or_none, item?]

theorem Valid.insertion {i : Index α} (h : i.Valid) (item : α) : i.Insertion item where
  present slot hs := insert_eq_ok.mpr (Or.inl ⟨hs, rfl⟩)
  absent hn hle := by
    have hslot := toNat_ofNat_slot hle
    have hfresh := h.next_not_mem hle
    have h0 : UInt32.ofNat i.numItems ≠ reservedSlot := by
      intro h0
      have hpos := h.numItems_pos
      rw [← hslot, h0] at hpos
      cases hpos
    refine ⟨_, _, insert_eq_ok.mpr (Or.inr ⟨hn, hle, rfl, rfl⟩), hslot, ?_, rfl,
      slot?_append hn _ _, item?_append h0 hfresh _ _⟩
    intro other ho
    exact hfresh (List.mem_map.mpr ⟨_, h.slot?_eq_some.mp ho, rfl⟩)
  exhausted hn hlt := by
    unfold Index.insert
    rw [hn, nextSlot?_of_lt hlt]

/-- The index after an attempt to insert an item; a failed attempt changes nothing. -/
def inserted (i : Index α) (item : α) : Index α :=
  match i.insert item with
  | .ok (_, j) => j
  | .error _ => i

theorem Valid.inserted {i : Index α} (h : i.Valid) (item : α) : (i.inserted item).Valid := by
  unfold Index.inserted
  split
  · rename_i hi
    exact h.insert hi
  · exact h

variable [Item α]

/-- The ways to make an index. -/
inductive Made : Index α → Prop
  | empty : Made empty
  | ofItems {items : List α} {i : Index α} : (ofItems items).result = .ok i → Made i
  | ofEntries {entries : List (α × Slot)} {numItems : Nat} {i : Index α} :
      ofEntries entries numItems = .ok i → Made i

theorem Made.valid {i : Index α} (h : i.Made) : i.Valid := by
  cases h with
  | empty => exact valid_empty
  | ofItems h => exact (dense_of_ofItems h).valid
  | ofEntries h => exact valid_of_ofEntries h

end Index

/-- Indexes side by side, each in its place. -/
abbrev Shelf (α : Type) := List (Index α)

namespace Shelf

/-- What can be done to a shelf. A copy joins at the end, or takes the place of another index. -/
inductive Move (α : Type)
  | insert (place : Nat) (item : α)
  | clone (source : Nat)
  | restore (place source : Nat)
  deriving DecidableEq, Repr

variable {α : Type} [DecidableEq α]

def step (shelf : Shelf α) : Move α → Shelf α
  | .insert place item => shelf.modify place fun i => i.inserted item
  | .clone source => shelf ++ shelf[source]?.toList
  | .restore place source =>
    match shelf[source]? with
    | some i => shelf.set place i
    | none => shelf

def run (shelf : Shelf α) (moves : List (Move α)) : Shelf α := moves.foldl step shelf

theorem step_valid {shelf : Shelf α} (h : ∀ i ∈ shelf, i.Valid) (move : Move α) :
    ∀ i ∈ step shelf move, i.Valid := by
  intro i hi
  cases move with
  | insert place item =>
    obtain ⟨p, hp⟩ := List.mem_iff_getElem?.mp hi
    rw [step, List.getElem?_modify] at hp
    obtain ⟨j, hj, rfl⟩ := Option.map_eq_some_iff.mp hp
    have hv := h j (List.mem_of_getElem? hj)
    split_ifs
    · exact hv.inserted item
    · exact hv
  | clone source =>
    rcases List.mem_append.mp hi with hi | hi
    · exact h i hi
    · exact h i (List.mem_of_getElem? (Option.mem_toList.mp hi))
  | restore place source =>
    cases hj : shelf[source]? with
    | none =>
      rw [step, hj] at hi
      exact h i hi
    | some j =>
      rw [step, hj] at hi
      rcases List.mem_or_eq_of_mem_set hi with hi | rfl
      · exact h i hi
      · exact h i (List.mem_of_getElem? hj)

theorem run_valid {shelf : Shelf α} (h : ∀ i ∈ shelf, i.Valid) (moves : List (Move α)) :
    ∀ i ∈ run shelf moves, i.Valid := by
  induction moves generalizing shelf with
  | nil => exact h
  | cons move moves ih => exact ih (step_valid h move)

/-- The items that a list of moves puts into one place. -/
def itemsInto (place : Nat) (moves : List (Move α)) : List α :=
  moves.filterMap fun
    | .insert p item => if p = place then some item else none
    | _ => none

/-- As long as no copy takes its place, an index is changed by its own insertions only. The
induction is on the moves, with the shelf open. -/
theorem run_getElem? {shelf : Shelf α} {place : Nat} {i : Index α} {moves : List (Move α)}
    (hi : shelf[place]? = some i) (h : ∀ source, Move.restore place source ∉ moves) :
    (run shelf moves)[place]? = some ((itemsInto place moves).foldl Index.inserted i) := by
  induction moves generalizing shelf i with
  | nil => exact hi
  | cons move moves ih =>
    have hrest : ∀ source, Move.restore place source ∉ moves := fun source hm =>
      h source (List.mem_cons_of_mem _ hm)
    cases move with
    | insert p item =>
      by_cases hp : p = place
      · have hs : (step shelf (.insert p item))[place]? = some (i.inserted item) := by
          rw [step, List.getElem?_modify, hi]
          simp [hp]
        have hitems : itemsInto place (.insert p item :: moves) = item :: itemsInto place moves :=
          List.filterMap_cons_some (if_pos hp)
        rw [hitems]
        exact ih hs hrest
      · have hs : (step shelf (.insert p item))[place]? = some i := by
          rw [step, List.getElem?_modify, hi]
          simp [hp]
        have hitems : itemsInto place (.insert p item :: moves) = itemsInto place moves :=
          List.filterMap_cons_none (if_neg hp)
        rw [hitems]
        exact ih hs hrest
    | clone source =>
      have hlt := (List.getElem?_eq_some_iff.mp hi).1
      exact ih ((List.getElem?_append_left hlt).trans hi) hrest
    | restore p source =>
      have hp : p ≠ place := fun hp => h source (hp ▸ List.mem_cons_self)
      have hs : (step shelf (.restore p source))[place]? = some i := by
        cases hj : shelf[source]? with
        | none => rwa [step, hj]
        | some j => rw [step, hj, List.getElem?_set_ne hp, hi]
      exact ih hs hrest

/-- A copy is equal to what it was taken from. -/
theorem getElem?_clone {shelf : Shelf α} {source : Nat} {i : Index α}
    (hi : shelf[source]? = some i) : (step shelf (.clone source))[shelf.length]? = some i := by
  simp [step, hi]

variable [Item α]

/-- On a shelf of indexes, whatever was done to it, every index numbers its items one to one and
takes further items as it should. A copy starts as what it was taken from; from then on, as long
as no copy takes their places, each of the two changes by the items put into it. -/
theorem run_oneToOne {shelf : Shelf α} (h : ∀ i ∈ shelf, i.Made) (moves : List (Move α)) :
    (∀ i ∈ run shelf moves, i.OneToOne ∧ ∀ item, i.Insertion item) ∧
      ∀ source i, (run shelf moves)[source]? = some i →
        ∀ place, place = source ∨ place = (run shelf moves).length →
          ∀ later, (∀ other, Move.restore place other ∉ later) →
            (run shelf (moves ++ .clone source :: later))[place]? =
              some ((itemsInto place later).foldl Index.inserted i) := by
  constructor
  · intro i hi
    have hv := run_valid (fun j hj => (h j hj).valid) moves i hi
    exact ⟨hv.oneToOne, hv.insertion⟩
  · intro source i hi place hplace later hlater
    have hcopy : (step (run shelf moves) (.clone source))[place]? = some i := by
      rcases hplace with rfl | rfl
      · exact (List.getElem?_append_left (List.getElem?_eq_some_iff.mp hi).1).trans hi
      · exact getElem?_clone hi
    have hrun : run shelf (moves ++ .clone source :: later) =
        run (step (run shelf moves) (.clone source)) later := List.foldl_append
    rw [hrun]
    exact run_getElem? hcopy hlater

/-- Entries out of order and with gaps, where a copy and its original each take an item more. -/
theorem run_oneToOne_gapped :
    let gapped : Index UInt32 := ⟨[(5, 1), (7, 3)], 5⟩
    (∀ i ∈ [gapped], i.Made) ∧ gapped.OneToOne ∧ gapped.Insertion 9 ∧
      (run [gapped] [.insert 0 9, .clone 0, .insert 0 2, .insert 1 4])[0]? =
        some ⟨[(5, 1), (7, 3), (9, 5), (2, 6)], 7⟩ ∧
      (run [gapped] [.insert 0 9, .clone 0, .insert 0 2, .insert 1 4])[1]? =
        some ⟨[(5, 1), (7, 3), (9, 5), (4, 6)], 7⟩ := by
  intro gapped
  have hentries : Index.ofEntries [((7 : UInt32), (3 : Slot)), (5, 1)] 5 = .ok gapped := by
    cbv
  have hmade : ∀ i ∈ [gapped], i.Made := List.forall_mem_singleton.mpr (.ofEntries hentries)
  have hgapped := (run_oneToOne hmade []).1 gapped (List.mem_singleton_self _)
  have hcopied := (run_oneToOne hmade [.insert 0 9]).2 0 ⟨[(5, 1), (7, 3), (9, 5)], 6⟩ rfl
  refine ⟨hmade, hgapped.1, hgapped.2 9, ?_, ?_⟩
  · exact hcopied 0 (Or.inl rfl) [.insert 0 2, .insert 1 4] (by simp)
  · exact hcopied 1 (Or.inr rfl) [.insert 0 2, .insert 1 4] (by simp)

end Shelf
end VectorTable
