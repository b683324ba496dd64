import VectorTable.Index

/-! The two maps of an index. A program finds slots by item in one map and items by slot in
another, and writes both in one go. The maps keep their pairs in no order that matters, so that
a listing by slot is sorted when it is asked for. -/
namespace VectorTable

/-- The values of a map with their keys. -/
abbrev FiniteMap (κ ν : Type) := List (κ × ν)

namespace FiniteMap

variable {κ ν : Type} [DecidableEq κ]

def get? (m : FiniteMap κ ν) (key : κ) : Option ν := (m.find? fun e => e.1 = key).map Prod.snd

/-- A key gets a value, in place of the one that it has had. -/
def put (m : FiniteMap κ ν) (key : κ) (value : ν) : FiniteMap κ ν :=
  (key, value) :: m.filter fun e => e.1 ≠ key

def contains (m : FiniteMap κ ν) (key : κ) : Bool := (m.get? key).isSome

end FiniteMap

structure ItemMaps (α : Type) where
  forward : FiniteMap α Slot
  backward : FiniteMap Slot α
  /-- Slots in use, the reserved one included. -/
  numItems : Nat
  deriving DecidableEq, Repr

namespace ItemMaps

variable {α : Type}

def empty : ItemMaps α := ⟨[], [], 1⟩

/-- Explicit items. -/
def size (m : ItemMaps α) : Nat := m.forward.length

def isEmpty (m : ItemMaps α) : Bool := m.size == 0

/-- The items with their slots, in ascending order of slot. -/
def entries (m : ItemMaps α) : List (α × Slot) := m.forward.mergeSort fun a b => a.2 ≤ b.2

/-- The item at a slot; there is none at the reserved slot. -/
def item? (m : ItemMaps α) (slot : Slot) : Option α :=
  if slot = reservedSlot then none else m.backward.get? slot

variable [DecidableEq α]

def slot? (m : ItemMaps α) (item : α) : Option Slot := m.forward.get? item

def contains (m : ItemMaps α) (item : α) : Bool := m.forward.contains item

/-- Write an item and its slot into both maps. -/
def assign (m : ItemMaps α) (item : α) (slot : Slot) : ItemMaps α :=
  { m with forward := m.forward.put item slot, backward := m.backward.put slot item }

/-- Give an item the next free slot; an item that has one keeps it. -/
def insert (m : ItemMaps α) (item : α) : Except Error (Slot × ItemMaps α) :=
  match m.forward.get? item with
  | some slot => .ok (slot, m)
  | none =>
    match nextSlot? m.numItems with
    | some slot => .ok (slot, { m.assign item slot with numItems := m.numItems + 1 })
    | none => .error (.slotsExhausted m.numItems)

variable [Item α]

/-- Add items in order; a repeated item is skipped with a warning. -/
def addAll (m : ItemMaps α) : List α → Run Event Error (ItemMaps α)
  | [] => pure m
  | item :: rest =>
    if m.contains item then do
      Run.tell (Index.duplicateSkipped item)
      addAll m rest
    else do
      let (_, next) ← m.insert item
      addAll next rest

def ofItems (items : List α) : Run Event Error (ItemMaps α) := addAll empty items

/-- Whether an entry may join those that are in the maps. -/
def accept (m : ItemMaps α) (e : α × Slot) : Except Error Unit :=
  if e.2 = reservedSlot ∨ m.numItems ≤ e.2.toNat then
    .error (.malformed (.slotOutside e.2 (Item.debug e.1) m.numItems))
  else if m.backward.contains e.2 then .error (.malformed (.slotTwice e.2))
  else if m.forward.contains e.1 then .error (.malformed (.itemTwice (Item.debug e.1)))
  else .ok ()

def assignAll (m : ItemMaps α) : List (α × Slot) → Except Error (ItemMaps α)
  | [] => .ok m
  | e :: rest => do
    m.accept e
    assignAll (m.assign e.1 e.2) rest

/-- The maps of given entries, which may come in any order. -/
def ofEntries (entries : List (α × Slot)) (numItems : Nat) : Except Error (ItemMaps α) :=
  if numItems = 0 then .error (.malformed .noReservedSlot)
  else assignAll ⟨[], [], numItems⟩ entries

end ItemMaps
end VectorTable
