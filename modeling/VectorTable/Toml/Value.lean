import VectorTable.Error

/-! The values of a TOML document, and the tree that its headers and keys build.
A table remembers how it came about, because that decides what may still be
added to it: nothing may define the same key or the same table twice. -/
namespace VectorTable.Toml

inductive Scalar where
  | text (s : String)
  | integer (n : Int64)
  /-- A number in double precision, by its bits. -/
  | float (bits : UInt64)
  | flag (b : Bool)
  /-- A date, a time or both, as written. -/
  | moment (written : String)
  deriving DecidableEq, Repr

/-- How a table came about. -/
inductive Origin where
  /-- Only named as a parent in a header. -/
  | implied
  /-- Made by a dotted key. -/
  | dotted
  /-- Opened by a header of its own; the document itself counts as such. -/
  | header
  /-- Written in braces. -/
  | inline
  deriving DecidableEq, Repr

inductive Value where
  | scalar (s : Scalar)
  | array (items : List Value)
  /-- The tables that repeated headers in double brackets open. -/
  | tables (items : List Value)
  | table (origin : Origin) (entries : List (String × Value))
  deriving Repr

/-- A key with dots: the tables to go through, and the name in the last of them. -/
structure Key where
  parents : List String
  last : String
  deriving DecidableEq, Repr

/-- The entries with the value of one key replaced, or added at the end. -/
def replaceEntry (name : String) (v : Value) : List (String × Value) → List (String × Value)
  | [] => [(name, v)]
  | (k, old) :: rest => if k = name then (name, v) :: rest else (k, old) :: replaceEntry name v rest

namespace Value

/-- Go into the value of a key, where that is a table that may be entered: a
dotted key only extends tables that no header and no braces have defined, a
header goes through any but those in braces. Of repeated tables the last is
meant. -/
def enter (dotted : Bool) (go : Value → Except TomlFault Value) : Value → Except TomlFault Value
  | .tables items =>
    match items.getLast? with
    | some last => do .ok (.tables (items.dropLast ++ [← go last]))
    | none => .error .definedTwice
  | .table origin entries =>
    if origin = .inline ∨ (dotted ∧ origin = .header) then .error .definedTwice
    else go (.table origin entries)
  | _ => .error .definedTwice

/-- Change the table at the end of a path. Tables that are not there yet are made
on the way. -/
def descend (dotted : Bool) (change : Value → Except TomlFault Value) :
    List String → Value → Except TomlFault Value
  | [], v => change v
  | name :: path, .table origin entries => do
    let fresh := .table (if dotted then .dotted else .implied) []
    let child ← enter dotted (descend dotted change path) ((entries.lookup name).getD fresh)
    .ok (.table origin (replaceEntry name child entries))
  | _, _ => .error .definedTwice

/-- Add a value under a key. Where the key has dots, its last table must be one
that dotted keys made. -/
def insert (key : Key) (v : Value) : Value → Except TomlFault Value :=
  descend true (fun
    | .table origin entries =>
      if (origin = .dotted ↔ key.parents = []) ∨ (entries.lookup key.last).isSome then
        .error .definedTwice
      else .ok (.table origin (entries ++ [(key.last, v)]))
    | _ => .error .definedTwice) key.parents

/-- Open the table of a header. It may be there already only as a parent that an
earlier header named. -/
def openTable (key : Key) : Value → Except TomlFault Value :=
  descend false (fun
    | .table origin entries =>
      match entries.lookup key.last with
      | none => .ok (.table origin (entries ++ [(key.last, .table .header [])]))
      | some (.table .implied inner) =>
        .ok (.table origin (replaceEntry key.last (.table .header inner) entries))
      | some _ => .error .definedTwice
    | _ => .error .definedTwice) key.parents

/-- Open one more table of a header in double brackets. -/
def openNext (key : Key) : Value → Except TomlFault Value :=
  descend false (fun
    | .table origin entries =>
      match entries.lookup key.last with
      | none => .ok (.table origin (entries ++ [(key.last, .tables [.table .header []])]))
      | some (.tables items) =>
        .ok (.table origin (replaceEntry key.last (.tables (items ++ [.table .header []])) entries))
      | some _ => .error .definedTwice
    | _ => .error .definedTwice) key.parents

/-- The table that pairs in braces make. -/
def ofPairs (pairs : List (Key × Value)) : Except TomlFault Value :=
  pairs.foldlM (fun table (key, v) => insert key v table) (.table .inline [])

end Value

/-- What a line of a document says. -/
inductive Statement where
  | pair (key : Key) (v : Value)
  | header (key : Key)
  | nextHeader (key : Key)
  deriving Repr

/-- A document in the making: all of it, and the path of the table that pairs go
to. -/
structure Draft where
  root : Value := .table .header []
  here : List String := []

def Draft.add (d : Draft) : Statement → Except TomlFault Draft
  | .pair key v => do .ok { d with root := ← Value.descend false (Value.insert key v) d.here d.root }
  | .header key => do .ok ⟨← Value.openTable key d.root, key.parents ++ [key.last]⟩
  | .nextHeader key => do .ok ⟨← Value.openNext key d.root, key.parents ++ [key.last]⟩

/-- The tree that the lines of a document build. -/
def Value.ofStatements (lines : List Statement) : Except TomlFault Value := do
  .ok (← lines.foldlM Draft.add {}).root

end VectorTable.Toml
