import Mathlib.Data.List.Induction
import VectorTable.Batch

/-! What becomes of a batch. The walk along its items keeps three lists in step: the slots, with
the reserved slot in every gap, the places of the gaps, and the items that belong there. Writing
answers at these places, one after the other, comes to filling the gaps from left to right, and no
write goes past the end. -/
namespace VectorTable

/-- The slots found, with the gaps filled from a list of answers in order. A gap that there is no
answer for has the reserved slot. -/
def fillGaps : List (Option Slot) → List Slot → List Slot
  | [], _ => []
  | some slot :: rest, answers => slot :: fillGaps rest answers
  | none :: rest, answer :: answers => answer :: fillGaps rest answers
  | none :: rest, [] => reservedSlot :: fillGaps rest []

theorem fillGaps_nil (found : List (Option Slot)) :
    fillGaps found [] = found.map fun slot? => slot?.getD reservedSlot := by
  induction found with
  | nil => rfl
  | cons slot? rest ih => cases slot? <;> simp [fillGaps, ih]

/-- The places of the gaps, counted from `n`. -/
def gaps (n : Nat) : List (Option Slot) → List Nat
  | [] => []
  | some _ :: rest => gaps (n + 1) rest
  | none :: rest => n :: gaps (n + 1) rest

theorem gaps_append (n : Nat) (front back : List (Option Slot)) :
    gaps n (front ++ back) = gaps n front ++ gaps (n + front.length) back := by
  induction front generalizing n with
  | nil => rfl
  | cons slot? rest ih =>
    have hnext : n + 1 + rest.length = n + (rest.length + 1) := by omega
    cases slot? <;> simp [gaps, ih, hnext]

theorem mem_gaps_lt {n : Nat} {found : List (Option Slot)} {place : Nat}
    (h : place ∈ gaps n found) : place < n + found.length := by
  induction found generalizing n with
  | nil => cases h
  | cons slot? rest ih =>
    rw [List.length_cons]
    cases slot? with
    | some slot =>
      have := ih h
      omega
    | none =>
      rcases List.mem_cons.mp h with rfl | h
      · omega
      · have := ih h
        omega

namespace Batch

variable {α : Type} [DecidableEq α]

/-- How a batch stands to the items that the walk has seen. -/
structure Follows (i : Index α) (items : List α) (b : Batch α) : Prop where
  slots : b.slots.toList = items.map fun item => (i.slot? item).getD reservedSlot
  places : b.places.toList = gaps 0 (items.map i.slot?)
  misses : b.misses.toList = items.filter fun item => (i.slot? item).isNone

/-- One step of the walk: the next item adds to the slots, and if it is missed, to all three. -/
theorem Follows.take {i : Index α} {items : List α} {b : Batch α} (h : Follows i items b)
    (item : α) : Follows i (items ++ [item]) (b.take i item items.length) := by
  unfold Batch.take
  cases hs : i.slot? item with
  | some slot =>
    refine ⟨?_, ?_, ?_⟩
    · simp [h.slots, hs]
    · simp [h.places, gaps_append, gaps, hs]
    · simp [h.misses, hs]
  | none =>
    refine ⟨?_, ?_, ?_⟩
    · simp [h.slots, hs]
    · simp [h.places, gaps_append, gaps, hs]
    · simp [h.misses, hs]

/-- The whole walk. The induction adds one item at the end, as the walk does. -/
theorem follows_ofItems (i : Index α) (items : List α) : Follows i items (ofItems i items) := by
  induction items using List.reverseRecOn with
  | nil => exact ⟨rfl, rfl, rfl⟩
  | append_singleton items item ih =>
    have hwalk : ofItems i (items ++ [item]) = (ofItems i items).take i item items.length := by
      simp [ofItems, List.zipIdx_append]
    rw [hwalk]
    exact ih.take item

/-- No answer is written past the end of the slots. -/
theorem Follows.place_lt {i : Index α} {items : List α} {b : Batch α} (h : Follows i items b)
    {place : Nat} (hp : place ∈ b.places.toList) : place < b.slots.size := by
  have hsize : b.slots.size = items.length := by
    rw [← Array.length_toList, h.slots, List.length_map]
  rw [h.places] at hp
  have hlt := mem_gaps_lt hp
  rw [List.length_map] at hlt
  omega

/-- Writing the answers at the places of the gaps fills the gaps. The induction runs along what
was found; the slots in front of it are settled, and those from there on have the reserved slot
in every gap. -/
theorem foldl_set_gaps (front : List Slot) (found : List (Option Slot)) (answers : List Slot) :
    ((gaps front.length found).zip answers).foldl (fun slots x => slots.set x.1 x.2)
      (front ++ found.map fun slot? => slot?.getD reservedSlot) = front ++ fillGaps found answers := by
  induction found generalizing front answers with
  | nil => simp [gaps, fillGaps]
  | cons slot? rest ih =>
    cases slot? with
    | some slot =>
      have := ih (front ++ [slot]) answers
      simpa [gaps, fillGaps] using this
    | none =>
      cases answers with
      | nil => simp [fillGaps_nil]
      | cons answer answers =>
        have := ih (front ++ [answer]) answers
        simpa [gaps, fillGaps] using this

omit [DecidableEq α] in
theorem toList_scatter (b : Batch α) (answers : List Slot) : (b.scatter answers).toList =
    (b.places.toList.zip answers).foldl (fun slots x => slots.set x.1 x.2) b.slots.toList := by
  unfold scatter
  generalize b.places.toList.zip answers = writes
  generalize b.slots = slots
  induction writes generalizing slots with
  | nil => rfl
  | cons x writes ih => rw [List.foldl_cons, ih, Array.toList_setIfInBounds, List.foldl_cons]

/-- A walk along the items, and then the answers written at their places, fill the gaps. -/
theorem Follows.scatter_eq {i : Index α} {items : List α} {b : Batch α} (h : Follows i items b)
    (answers : List Slot) : (b.scatter answers).toList = fillGaps (items.map i.slot?) answers := by
  have hslots : b.slots.toList =
      [] ++ (items.map i.slot?).map fun slot? => slot?.getD reservedSlot := by
    rw [h.slots, List.map_map]
    rfl
  rw [toList_scatter, h.places, hslots]
  exact foldl_set_gaps [] (items.map i.slot?) answers

end Batch
end VectorTable
