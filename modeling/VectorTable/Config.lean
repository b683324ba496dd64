import VectorTable.Fallthrough
import VectorTable.Filling
import VectorTable.Number.Decimal

/-! The options of a fresh table. At most one of them may name a policy for
unknown items. -/
namespace VectorTable

structure Config (α : Type) [Item α] where
  /-- The items in the order of their slots. -/
  items : List α := []
  width : Nat := 0
  dataType : DataType := .float32
  sparseGrad : Bool := true
  useDefaultRow : Bool := false
  defaultItem : Option α := none
  handler : Option (Handler α) := none
  filling : Filling := .xavier

def Filling.debug : Filling → String
  | .zeros => "Zeros"
  | .normal mean std => s!"Normal \x7b mean: {mean.debug}, std: {std.debug} \x7d"
  | .uniform low high => s!"Uniform \x7b low: {low.debug}, high: {high.debug} \x7d"
  | .xavier => "Xavier"

namespace Config

variable {α : Type} [Item α]

def debug (c : Config α) : String :=
  let item := match c.defaultItem with
    | some x => "Some(" ++ Item.debug x ++ ")"
    | none => "None"
  s!"EmbeddingConfig \x7b items: {c.items.length}, embedding_size: {c.width}, " ++
    s!"data_type: {c.dataType.debug}, sparse_grad: {c.sparseGrad}, " ++
    s!"use_default_row: {c.useDefaultRow}, default_item: {item}, " ++
    s!"custom_fallthrough: {c.handler.isSome}, init: {c.filling.debug} \x7d"

/-- The names of the options that ask for a policy. -/
def fallthroughSources (c : Config α) : List String :=
  (if c.useDefaultRow then ["use_default_row"] else []) ++
  (if c.defaultItem.isSome then ["default_item"] else []) ++
  (if c.handler.isSome then ["custom_fallthrough"] else [])

/-- The one policy that the options ask for. -/
def fallthrough (c : Config α) : Except Error (Fallthrough α) :=
  if 1 < c.fallthroughSources.length then
    .error (.configuration (.fallthroughSources c.fallthroughSources))
  else match c.handler, c.defaultItem with
    | some handler, _ => .ok (.custom handler)
    | none, some item => .ok (.defaultItem item)
    | none, none => .ok (if c.useDefaultRow then .defaultRow else .none)

/-- A spread must be finite and not negative, and the ends of a range finite and
in order. -/
def checkFilling : Filling → Except Misfit Unit
  | .normal _ std =>
    match std.units? with
    | some s => if 0 ≤ s then .ok () else .error (.normalDeviation std.plain)
    | none => .error (.normalDeviation std.plain)
  | .uniform low high =>
    match low.units?, high.units? with
    | some a, some b => if a < b then .ok () else .error (.uniformRange low.plain high.plain)
    | _, _ => .error (.uniformRange low.plain high.plain)
  | _ => .ok ()

def validate (c : Config α) : Except Error Unit := do
  if c.width = 0 then .error (.configuration .emptyRows)
  else do
    (checkFilling c.filling).mapError .configuration
    let _ ← c.fallthrough
    .ok ()

end Config
end VectorTable
