import VectorTable.Persisted
import VectorTable.Text.Json

/-! What an inspection tells about a table file, as lines of text or as JSON. -/
namespace VectorTable.Command

structure Report where
  file : String
  version : UInt8
  inputShapes : Option (List String)
  dataType : String
  sparseGrad : Option Bool
  /-- The number of items in the file. -/
  explicitItems : Option Nat
  numItems : Nat
  width : Nat
  retrofitted : Bool
  /-- The first items with their slots, in debug form. -/
  items : List (Slot × String)
  deriving DecidableEq, Repr

namespace Report

/-- The report on a file, with so many of its items. -/
def ofPersisted {α : Type} [Item α] (file : String) (showItems : Nat) (p : Persisted α) : Report := {
  file
  version := p.version
  inputShapes := p.inputShapes.map fun shapes => shapes.map Shape.text
  dataType := match p.dataType.or p.matrix.elementType.dataType? with
    | some t => t.name
    | none => p.matrix.elementType.code
  sparseGrad := p.sparseGrad
  explicitItems := p.index.map Index.size
  numItems := p.numItems
  width := p.width
  retrofitted := p.retrofitted
  items := match p.index with
    | some index => (index.entries.take showItems).map fun (item, slot) => (slot, Item.debug item)
    | none => [] }

def orAbsent : Option String → String
  | some s => s
  | none => "(not stored)"

/-- Text put to the right end of a column. -/
def alignRight (width : Nat) (s : String) : String :=
  String.ofList (List.replicate (width - s.length) ' ') ++ s

def lines (r : Report) : List String :=
  let age := if r.version = currentVersion then "current" else "legacy"
  ["file:           " ++ r.file,
   s!"version:        {r.version} ({age})",
   "input shapes:   " ++ orAbsent (r.inputShapes.map (", ".intercalate ·)),
   "data type:      " ++ r.dataType,
   "sparse grad:    " ++ orAbsent (r.sparseGrad.map toString),
   "explicit items: " ++ orAbsent (r.explicitItems.map toString),
   s!"matrix:         {r.numItems} x {r.width}",
   "retrofitted:    " ++ (if r.retrofitted then "yes" else "no")] ++
  (if r.items.isEmpty then [] else ["items:"]) ++
  r.items.map fun (slot, item) => "  " ++ alignRight 6 (toString slot.toNat) ++ "  " ++ item

def text (r : Report) : String := String.join (r.lines.map (· ++ "\n"))

def toJson (r : Report) : JsonValue :=
  .object [
    ("file", .text r.file),
    ("version", .number r.version.toNat),
    ("input_shapes", .ofOption (fun shapes => .array (shapes.map .text)) r.inputShapes),
    ("data_type", .text r.dataType),
    ("sparse_grad", .ofOption .flag r.sparseGrad),
    ("explicit_items", .ofOption (fun (n : Nat) => .number n) r.explicitItems),
    ("num_items", .number r.numItems),
    ("embedding_size", .number r.width),
    ("retrofitted", .flag r.retrofitted),
    ("items", .array (r.items.map fun (slot, item) =>
      .object [("slot", .number slot.toNat), ("item", .text item)]))]

def jsonText (r : Report) : String := r.toJson.pretty 0 ++ "\n"

end Report
end VectorTable.Command
