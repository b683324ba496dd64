import VectorTable.Index

/-! What becomes of items that a table does not hold. Exactly one policy is in
force: refuse them, send them to row 0, send them to row 0 and let one item stand
for all of them, or leave them to a handler of the caller's. -/
namespace VectorTable

/-- A caller's own treatment of unknown items. Unless it says otherwise, a batch
is served item by item, and items have their usual byte form. -/
structure Handler (α : Type) [Item α] where
  hasItem : α → Bool
  embed : α → Except Error Slot
  unembed : Slot → Except Error (Option α)
  embedBatch : List α → Except Error (List Slot) := fun items => items.mapM embed
  encode : α → Except Error (List UInt8) := fun item => .ok (Item.encode item)
  decode : List UInt8 → Except Error α := fun bytes => (Item.decode bytes).mapError .itemCodec

inductive Fallthrough (α : Type) [Item α] where
  | none
  | defaultRow
  | defaultItem (item : α)
  | custom (handler : Handler α)

namespace Fallthrough

variable {α : Type} [Item α]

def kind : Fallthrough α → String
  | .none => "none"
  | .defaultRow => "default-row"
  | .defaultItem _ => "default-item"
  | .custom _ => "custom"

def isNone : Fallthrough α → Bool
  | .none => true
  | _ => false

def debug : Fallthrough α → String
  | .none => "None"
  | .defaultRow => "DefaultRow"
  | .defaultItem item => "DefaultItem(" ++ Item.debug item ++ ")"
  | .custom _ => "Custom(..)"

/-- Whether the policy takes an item that the table lacks. -/
def hasItem (policy : Fallthrough α) (item : α) : Bool :=
  match policy with
  | .none => false
  | .defaultRow | .defaultItem _ => true
  | .custom handler => handler.hasItem item

/-- The slot of an item that the table lacks. -/
def embed (policy : Fallthrough α) (item : α) : Except Error Slot :=
  match policy with
  | .none => .error .itemNotFound
  | .defaultRow | .defaultItem _ => .ok reservedSlot
  | .custom handler => handler.embed item

/-- The slots of items that the table lacks, asked for together. -/
def embedBatch (policy : Fallthrough α) (items : List α) : Except Error (List Slot) :=
  match policy with
  | .none => if items.isEmpty then .ok [] else .error .itemNotFound
  | .defaultRow | .defaultItem _ => .ok (List.replicate items.length reservedSlot)
  | .custom handler => handler.embedBatch items

/-- The item that a slot stands for on this path. -/
def unembed (policy : Fallthrough α) (slot : Slot) : Except Error (Option α) :=
  match policy with
  | .none => .error .undefinedFallthrough
  | .defaultRow => .ok Option.none
  | .defaultItem item => .ok (some item)
  | .custom handler => handler.unembed slot

end Fallthrough
end VectorTable
