import VectorTable.Config

/-! Environment variables that override options. A variable whose bytes are no
text counts as unset; blanks around a value do not matter, but a complaint
quotes the value as it is. -/
namespace VectorTable

structure Environment where
  values : List (String × List UInt8) := []

namespace Environment

def get? (env : Environment) (name : String) : Option String :=
  match env.values.lookup name with
  | none => none
  | some bytes => (Utf8.decode bytes).toOption

def sizeName : String := "EMBEDDING_TABLE_SIZE"
def dataTypeName : String := "EMBEDDING_TABLE_DATA_TYPE"
def sparseGradName : String := "EMBEDDING_TABLE_SPARSE_GRAD"
def defaultRowName : String := "EMBEDDING_TABLE_USE_DEFAULT_ROW"

def digitValue (c : Char) : Nat := c.toNat - '0'.toNat

/-- A decimal number, perhaps with a plus sign, that a machine word can hold. -/
def parseSize (text : String) : Option Nat :=
  let digits := match text.toList with
    | '+' :: rest => rest
    | all => all
  if digits.isEmpty || !digits.all Char.isDigit then none
  else
    let n := digits.foldl (fun n c => 10 * n + digitValue c) 0
    if n < 2 ^ 64 then some n else none

def parseSwitch (text : String) : Option Bool :=
  let word := lowerAscii text
  if word ∈ ["1", "true", "yes", "on"] then some true
  else if word ∈ ["0", "false", "no", "off"] then some false
  else none

/-- The value of a variable that is set, or what is in force without it. -/
def overlay {β : Type} (env : Environment) (name : String) (parse : String → Option β) (old : β) :
    Except Error β :=
  match env.get? name with
  | none => .ok old
  | some text =>
    match parse (trimBlanks text) with
    | some value => .ok value
    | none => .error (.invalidEnvVar name text)

end Environment

/-- The options with the overrides of an environment. -/
def Config.override {α : Type} [Item α] (c : Config α) (env : Environment) :
    Except Error (Config α) := do
  let width ← env.overlay Environment.sizeName Environment.parseSize c.width
  let dataType ← env.overlay Environment.dataTypeName (fun s => (DataType.parse s).toOption)
    c.dataType
  let sparseGrad ← env.overlay Environment.sparseGradName Environment.parseSwitch c.sparseGrad
  let useDefaultRow ←
    env.overlay Environment.defaultRowName Environment.parseSwitch c.useDefaultRow
  .ok { c with width, dataType, sparseGrad, useDefaultRow }

end VectorTable
