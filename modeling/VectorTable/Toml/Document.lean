import VectorTable.Toml.Quotation
import VectorTable.Toml.Numeral

/-! Reading a TOML document: lines with headers and pairs, and the values in them.
Arrays may run over several lines, tables in braces may not. Values and keys may
only be nested to a fixed depth. -/
namespace VectorTable.Toml

def isBareKeyChar (c : Char) : Bool := c.isAlphanum || c == '_' || c == '-'

/-- Nesting beyond this many arrays, tables in braces or parts of a key is refused. -/
def maxDepth : Nat := 79

namespace Scan

def bareKey : Scan (List Char) := do
  let name ← span isBareKeyChar
  if name.isEmpty then fail else pure name

/-- One part of a key: bare, or in quotation marks on one line. -/
def keyPart : Scan String := do
  spaces
  let name ← match ← get with
    | '"' :: _ | '\'' :: _ => front Quotation.line?
    | _ => bareKey
  spaces
  pure (String.ofList name)

/-- One more part of a key, if there is a dot. -/
def nextPart : Scan (Option String) := do
  if ← takes '.' then some <$> keyPart else pure none

/-- A key of one or more parts with dots between. -/
def key : Scan Key := do
  let first ← keyPart
  let more ← repeated nextPart
  if maxDepth ≤ more.length then fail
  else match more.getLast? with
    | none => pure ⟨[], first⟩
    | some last => pure ⟨first :: more.dropLast, last⟩

/-- The comma after an element, which may be left out before the bracket. -/
def separator : Scan Unit := do
  match ← get with
  | ',' :: rest => set rest
  | ']' :: _ => pure ()
  | _ => fail

/-- One more element of an array, if its bracket does not come. -/
def element (value : Scan Value) : Scan (Option Value) := do
  gap
  match ← get with
  | ']' :: _ => pure none
  | _ => do
    let item ← value
    gap
    separator
    pure (some item)

/-- The elements of an array after its bracket. -/
def elements (value : Scan Value) : Scan Value := do
  let items ← repeated (element value)
  expect ']'
  pure (.array items)

/-- A key, an equals sign and a value. -/
def pair (value : Scan Value) : Scan (Key × Value) := do
  let name ← key
  expect '='
  spaces
  pure (name, ← value)

/-- The pairs of a table after its brace, with commas between and none at the end. -/
def pairs (value : Scan Value) : Scan Value := do
  spaces
  if ← takes '}' then pure (.table .inline [])
  else do
    let first ← pair value
    spaces
    let more ← repeated do
      if ← takes ',' then do
        let next ← pair value
        spaces
        pure (some next)
      else pure none
    expect '}'
    ofExcept (Value.ofPairs (first :: more))

/-- A value without others inside. -/
def scalar : Scan Value := do
  match ← get with
  | '"' :: _ | '\'' :: _ => do
    let s ← front Quotation.read?
    pure (.scalar (.text (String.ofList s)))
  | _ => Value.scalar <$> front Numeral.read?

/-- A value with no more than so many levels of others inside. -/
def value : Nat → Scan Value
  | 0 => scalar
  | depth + 1 => do
    match ← get with
    | '[' :: rest => do
      set rest
      elements (value depth)
    | '{' :: rest => do
      set rest
      pairs (value depth)
    | _ => scalar

/-- A header after its first bracket. -/
def header : Scan Statement := do
  if ← takes '[' then do
    let name ← key
    expect ']'
    expect ']'
    pure (.nextHeader name)
  else do
    let name ← key
    expect ']'
    pure (.header name)

/-- A header or a pair, up to the end of its line. -/
def statement : Scan Statement := do
  let line ←
    if ← takes '[' then header
    else do
      let (name, v) ← pair (value maxDepth)
      pure (.pair name v)
  lineEnd
  pure line

/-- One more header or pair, if the text does not end. -/
def nextStatement : Scan (Option Statement) := do
  gap
  if (← get).isEmpty then pure none else some <$> statement

def statements : Scan (List Statement) := repeated nextStatement

end Scan

/-- The text without a byte order mark at its front. -/
def dropMark : List Char → List Char
  | '\ufeff' :: rest => rest
  | all => all

/-- The tree of a document. A byte order mark at its front does not count. -/
def parse (text : String) : Except TomlFault Value := do
  let (lines, _) ← Scan.statements (dropMark text.toList)
  Value.ofStatements lines

end VectorTable.Toml
