import VectorTable.Run
import VectorTable.Event
import VectorTable.Item

/-! Which item has which slot. Slot 0 is reserved and belongs to no item, so an
index without items already counts one slot. The entries are kept in ascending
order of slot: looking up an item, looking up a slot and listing the entries are
three readings of that one list, and two indexes with the same entries and the
same count are equal. `ItemMaps` is the index of a program, with a map for either
look-up. -/
namespace VectorTable

abbrev Slot := UInt32

/-- The slot for items that a table does not hold. -/
def reservedSlot : Slot := 0

/-- The largest slot that a file can hold. -/
def maxSlot : Slot := 0x7FFFFFFF

/-- The slot that comes after so many: the count as a word, if it is one and a file can hold it. -/
def nextSlot? (numItems : Nat) : Option Slot :=
  (if numItems < 2 ^ 32 then some (UInt32.ofNat numItems) else none).filter fun s => s ≤ maxSlot

structure Index (α : Type) where
  entries : List (α × Slot)
  /-- Slots in use, the reserved one included. -/
  numItems : Nat
  deriving DecidableEq, Repr

namespace Index

variable {α : Type}

def empty : Index α := ⟨[], 1⟩

/-- Explicit items. -/
def size (i : Index α) : Nat := i.entries.length

def isEmpty (i : Index α) : Bool := i.entries.isEmpty

/-- The item at a slot; there is none at the reserved slot. -/
def item? (i : Index α) (slot : Slot) : Option α :=
  if slot = reservedSlot then none
  else (i.entries.find? fun e => e.2 = slot).map Prod.fst

variable [DecidableEq α]

def slot? (i : Index α) (item : α) : Option Slot :=
  (i.entries.find? fun e => e.1 = item).map Prod.snd

def contains (i : Index α) (item : α) : Bool := (i.slot? item).isSome

/-- Give an item the next free slot; an item that has one keeps it. -/
def insert (i : Index α) (item : α) : Except Error (Slot × Index α) :=
  match i.slot? item with
  | some slot => .ok (slot, i)
  | none =>
    match nextSlot? i.numItems with
    | some slot => .ok (slot, ⟨i.entries ++ [(item, slot)], i.numItems + 1⟩)
    | none => .error (.slotsExhausted i.numItems)

variable [Item α]

def duplicateSkipped (item : α) : Event :=
  ⟨.warn, .index, "duplicate item skipped while building index",
    [("item", .text (Item.debug item))]⟩

/-- Add items in order; a repeated item is skipped with a warning. -/
def addAll (i : Index α) : List α → Run Event Error (Index α)
  | [] => pure i
  | item :: rest =>
    if i.contains item then do
      Run.tell (duplicateSkipped item)
      addAll i rest
    else do
      let (_, next) ← i.insert item
      addAll next rest

/-- The index that numbers items from 1 in the order of their first occurrence. -/
def ofItems (items : List α) : Run Event Error (Index α) := addAll empty items

/-- Whether an entry may join those accepted before it. -/
def accept (numItems : Nat) (accepted : List (α × Slot)) (e : α × Slot) : Except Error Unit :=
  if e.2 = reservedSlot ∨ numItems ≤ e.2.toNat then
    .error (.malformed (.slotOutside e.2 (Item.debug e.1) numItems))
  else if accepted.any fun a => a.2 = e.2 then .error (.malformed (.slotTwice e.2))
  else if accepted.any fun a => a.1 = e.1 then
    .error (.malformed (.itemTwice (Item.debug e.1)))
  else .ok ()

def acceptAll (numItems : Nat) (accepted : List (α × Slot)) : List (α × Slot) → Except Error Unit
  | [] => .ok ()
  | e :: rest => do
    accept numItems accepted e
    acceptAll numItems (e :: accepted) rest

/-- The index of given entries, which may come in any order. Every slot has to
lie in `1 .. numItems`, and no slot and no item may come twice. -/
def ofEntries (entries : List (α × Slot)) (numItems : Nat) : Except Error (Index α) :=
  if numItems = 0 then .error (.malformed .noReservedSlot)
  else do
    acceptAll numItems [] entries
    .ok ⟨entries.mergeSort fun a b => a.2 ≤ b.2, numItems⟩

end Index
end VectorTable
