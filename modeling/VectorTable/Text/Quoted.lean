import VectorTable.Text.Printable

/-! The quoted form of a text, as messages and logs show it: double quotes
around it, short escapes for the common controls, the quote and the backslash,
and the hexadecimal code point of every character that would not be seen. -/
namespace VectorTable.Quoted

def hexDigits (n : Nat) : String := String.ofList (Nat.toDigits 16 n)

def escape (c : Char) : String :=
  if c = '\x00' then "\\0"
  else if c = '\t' then "\\t"
  else if c = '\r' then "\\r"
  else if c = '\n' then "\\n"
  else if c = '"' then "\\\""
  else if c = '\\' then "\\\\"
  else if isExtending c || !isPrintable c then "\\u\x7b" ++ hexDigits c.toNat ++ "\x7d"
  else c.toString

def quote (s : String) : String := "\"" ++ String.join (s.toList.map escape) ++ "\""

end VectorTable.Quoted
