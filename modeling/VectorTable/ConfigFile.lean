import VectorTable.Config
import VectorTable.Files
import VectorTable.Toml.Document
import VectorTable.Toml.Section

/-! Options as a TOML document. All of them stand in one table; what is left out
keeps its default, and what is not known does not matter. A handler cannot be
written down. -/
namespace VectorTable

open Toml (Scalar Value Field Section)

/-- Items that a document can hold. -/
class TomlItem (α : Type) where
  ofScalar : Scalar → Option α
  /-- Absent for a number that is too large for a document. -/
  toScalar : α → Option Scalar

/-- The number in a document, if it is one and lies in a range. -/
def Toml.Scalar.within? (low high : Int) : Scalar → Option Int
  | .integer n => if low ≤ n.toInt ∧ n.toInt ≤ high then some n.toInt else none
  | _ => none

/-- A natural number as a document shows it. -/
def Toml.Scalar.ofNat? (n : Nat) : Option Scalar :=
  if n < 2 ^ 63 then some (.integer (Int64.ofNat n)) else none

instance : TomlItem String where
  ofScalar
    | .text s => some s
    | _ => none
  toScalar s := some (.text s)

instance : TomlItem UInt32 where
  ofScalar s := (s.within? 0 (2 ^ 32 - 1)).map UInt32.ofInt
  toScalar n := Scalar.ofNat? n.toNat

instance : TomlItem UInt64 where
  ofScalar s := (s.within? 0 (2 ^ 64 - 1)).map UInt64.ofInt
  toScalar n := Scalar.ofNat? n.toNat

instance : TomlItem Int32 where
  ofScalar s := (s.within? (-2 ^ 31) (2 ^ 31 - 1)).map Int32.ofInt
  toScalar n := some (.integer n.toInt64)

instance : TomlItem Int64 where
  ofScalar s := (s.within? (-2 ^ 63) (2 ^ 63 - 1)).map Int64.ofInt
  toScalar n := some (.integer n)

namespace Toml.Value

def scalar? : Value → Option Scalar
  | .scalar s => some s
  | _ => none

def size? (v : Value) : Option Nat := (v.scalar?.bind (·.within? 0 (2 ^ 64 - 1))).map Int.toNat

def flag? : Value → Option Bool
  | .scalar (.flag b) => some b
  | _ => none

/-- A number in single precision; whole ones may be written without a point. -/
def single? : Value → Option Single
  | .scalar (.float bits) => some (Single.ofDouble bits.toNat)
  | .scalar (.integer n) => some (Single.ofReal (.finite (n.toInt < 0) n.toInt.natAbs 0))
  | _ => none

def isEmpty : Value → Bool
  | .array items | .tables items => items.isEmpty
  | .table _ entries => entries.isEmpty
  | .scalar _ => false

/-- The name of a type, alone or as the only key of a table, with nothing below it. -/
def dataType? : Value → Option DataType
  | .scalar (.text name) => DataType.ofName? name
  | .table _ [(name, v)] => if v.isEmpty then DataType.ofName? name else none
  | _ => none

/-- The fields of a record. A table has them by name, an array by position, and a
date or time counts as a table without any. -/
def fields? (names : List String) : Value → Option (List (String × Value))
  | .table _ entries => some entries
  | .array items | .tables items => some (names.zip items)
  | .scalar (.moment _) => some []
  | .scalar _ => none

end Toml.Value

/-- The two numbers of a filling, by name. -/
def Filling.withNumbers? (entries : List (String × Value)) (first second : String)
    (make : Single → Single → Filling) : Option Filling := do
  some (make (← (← entries.lookup first).single?) (← (← entries.lookup second).single?))

/-- A filling is a table with its name under `kind`, or an array that starts with
the name and holds nothing else that is not needed. -/
def Filling.ofValue? : Value → Option Filling
  | .table _ entries =>
    match entries.lookup "kind" with
    | some (.scalar (.text "zeros")) => some .zeros
    | some (.scalar (.text "xavier")) => some .xavier
    | some (.scalar (.text "normal")) => withNumbers? entries "mean" "std" .normal
    | some (.scalar (.text "uniform")) => withNumbers? entries "low" "high" .uniform
    | _ => none
  | .array [.scalar (.text "zeros")] => some .zeros
  | .array [.scalar (.text "xavier")] => some .xavier
  | .array [.scalar (.text "normal"), mean, std] => do some (.normal (← mean.single?) (← std.single?))
  | .array [.scalar (.text "uniform"), low, high] => do some (.uniform (← low.single?) (← high.single?))
  | _ => none

def Filling.toFields : Filling → List (String × Field)
  | .zeros => [("kind", .one (.text "zeros"))]
  | .xavier => [("kind", .one (.text "xavier"))]
  | .normal mean std =>
    [("kind", .one (.text "normal")), ("mean", .one (.float (UInt64.ofNat mean.widen))),
     ("std", .one (.float (UInt64.ofNat std.widen)))]
  | .uniform low high =>
    [("kind", .one (.text "uniform")), ("low", .one (.float (UInt64.ofNat low.widen))),
     ("high", .one (.float (UInt64.ofNat high.widen)))]

namespace Config

variable {α : Type} [Item α] [TomlItem α]

def itemsOf? : Value → Option (List α)
  | .array items | .tables items =>
    items.mapM fun v => v.scalar?.bind TomlItem.ofScalar
  | _ => none

/-- The names of the fields, in the order of a document. -/
def fieldNames : List String :=
  ["items", "embedding_size", "data_type", "sparse_grad", "use_default_row", "default_item", "init"]

/-- The value of a field, or its default if it is left out. -/
def fieldOr {β : Type} (entries : List (String × Value)) (name : String) (read : Value → Option β)
    (default : β) : Option β :=
  match entries.lookup name with
  | some v => read v
  | none => some default

def ofValue? (v : Value) : Option (Config α) := do
  let entries ← v.fields? fieldNames
  some {
    items := ← fieldOr entries "items" itemsOf? []
    width := ← fieldOr entries "embedding_size" Value.size? 0
    dataType := ← fieldOr entries "data_type" Value.dataType? .float32
    sparseGrad := ← fieldOr entries "sparse_grad" Value.flag? true
    useDefaultRow := ← fieldOr entries "use_default_row" Value.flag? false
    defaultItem := ← fieldOr entries "default_item"
      (fun v => (v.scalar?.bind TomlItem.ofScalar).map some) none
    filling := ← fieldOr entries "init" Filling.ofValue? .xavier }

def tableName : String := "embedding"

/-- The options in a document. -/
def ofToml (text : String) : Except Error (Config α) :=
  match Toml.parse text with
  | .error fault => .error (.tomlParse fault)
  | .ok (.table _ entries) =>
    match (entries.lookup tableName).bind ofValue? with
    | some c => .ok c
    | none => .error (.tomlParse .field)
  | .ok _ => .error (.tomlParse .field)

/-- The options in a file. -/
def ofTomlFile (files : Files) (path : String) : Except Error (Config α) := do
  let bytes ← (files.read path).mapError .io
  match Utf8.decode bytes with
  | .ok text => ofToml text
  | .error _ => .error (.io .notText)

/-- The sections of a document with the options; none if a number is too large. -/
def toSections? (c : Config α) : Option (List Section) := do
  let items ← c.items.mapM TomlItem.toScalar
  let width ← Scalar.ofNat? c.width
  let defaultItem ← match c.defaultItem with
    | some x => do some [("default_item", Field.one (← TomlItem.toScalar x))]
    | none => some []
  some [
    ⟨[tableName],
      [("items", .list items), ("embedding_size", .one width),
        ("data_type", .one (.text c.dataType.name)), ("sparse_grad", .one (.flag c.sparseGrad)),
        ("use_default_row", .one (.flag c.useDefaultRow))] ++ defaultItem⟩,
    ⟨[tableName, "init"], c.filling.toFields⟩]

/-- A document with the options, without the handler. -/
def toToml (c : Config α) : Except Error String :=
  match c.toSections? with
  | some sections => .ok (Toml.writeSections sections)
  | none => .error .tomlSerialize

end Config
end VectorTable
