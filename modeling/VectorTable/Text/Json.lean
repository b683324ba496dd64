import VectorTable.Error

/-! JSON text, laid out with two spaces per level. -/
namespace VectorTable

inductive JsonValue where
  | null
  | flag (b : Bool)
  | number (n : Int)
  | text (s : String)
  | array (items : List JsonValue)
  | object (members : List (String × JsonValue))
  deriving Repr

namespace JsonValue

/-- A character in a quoted string. Only quotation marks, backslashes and controls
are escaped. -/
def escapeChar (c : Char) : String :=
  match c with
  | '"' => "\\\""
  | '\\' => "\\\\"
  | '\n' => "\\n"
  | '\r' => "\\r"
  | '\t' => "\\t"
  | '\x08' => "\\b"
  | '\x0c' => "\\f"
  | c => if c.toNat < 0x20 then "\\u" ++ hexPadded 4 c.toNat else c.toString

def quote (s : String) : String := "\"" ++ String.join (s.toList.map escapeChar) ++ "\""

def ofOption {α : Type} (f : α → JsonValue) : Option α → JsonValue
  | some a => f a
  | none => .null

def indent (depth : Nat) : String := String.ofList (List.replicate (2 * depth) ' ')

/-- Lines between brackets, or the brackets alone. -/
def enclose (depth : Nat) (opening closing : String) : List String → String
  | [] => opening ++ closing
  | lines =>
    opening ++ "\n" ++ ",\n".intercalate (lines.map (indent (depth + 1) ++ ·)) ++ "\n" ++
      indent depth ++ closing

mutual

/-- The text of a value whose line is indented to a depth. -/
def pretty (depth : Nat) : JsonValue → String
  | .null => "null"
  | .flag b => toString b
  | .number n => toString n
  | .text s => quote s
  | .array items => enclose depth "[" "]" (prettyItems (depth + 1) items)
  | .object members => enclose depth "\x7b" "\x7d" (prettyMembers (depth + 1) members)

def prettyItems (depth : Nat) : List JsonValue → List String
  | [] => []
  | v :: rest => pretty depth v :: prettyItems depth rest

def prettyMembers (depth : Nat) : List (String × JsonValue) → List String
  | [] => []
  | (key, v) :: rest => (quote key ++ ": " ++ pretty depth v) :: prettyMembers depth rest

end

end JsonValue
end VectorTable
