import VectorTable.Index

/-! A batch of items on its way to slots. One walk along the items finds the slots that an index
knows; for an item that it does not know the reserved slot stands in, and the item is put aside
with its place. Answers for the items put aside are then written over their stand-ins. -/
namespace VectorTable

structure Batch (α : Type) where
  /-- A slot for each item so far. -/
  slots : Array Slot := #[]
  /-- Where the reserved slot stands in. -/
  places : Array Nat := #[]
  /-- The items at those places. -/
  misses : Array α := #[]
  deriving DecidableEq, Repr

namespace Batch

variable {α : Type}

/-- One more item, at a place. -/
def take [DecidableEq α] (i : Index α) (b : Batch α) (item : α) (place : Nat) : Batch α :=
  match i.slot? item with
  | some slot => { b with slots := b.slots.push slot }
  | none =>
    { slots := b.slots.push reservedSlot, places := b.places.push place,
      misses := b.misses.push item }

def ofItems [DecidableEq α] (i : Index α) (items : List α) : Batch α :=
  items.zipIdx.foldl (fun b x => b.take i x.1 x.2) {}

/-- The slots with answers written at the places of the misses, one after the other. -/
def scatter (b : Batch α) (answers : List Slot) : Array Slot :=
  (b.places.toList.zip answers).foldl (fun slots x => slots.setIfInBounds x.1 x.2) b.slots

end Batch
end VectorTable
