/-! White space in the sense of the Unicode property, and trimming by it. -/
namespace VectorTable

/-- The characters with the Unicode property White_Space. -/
def isBlank (c : Char) : Bool :=
  let v := c.toNat
  (0x9 ≤ v && v ≤ 0xD) || v == 0x20 || v == 0x85 || v == 0xA0 || v == 0x1680 ||
  (0x2000 ≤ v && v ≤ 0x200A) || v == 0x2028 || v == 0x2029 || v == 0x202F || v == 0x205F ||
  v == 0x3000

/-- The text without the blanks at its two ends. -/
def trimBlanks (s : String) : String :=
  String.ofList (((s.toList.dropWhile isBlank).reverse.dropWhile isBlank).reverse)

/-- Lower case for the ASCII letters; every other character stays as it is. -/
def lowerAscii (s : String) : String :=
  s.map fun c => if 'A' ≤ c && c ≤ 'Z' then Char.ofNat (c.toNat + 32) else c

end VectorTable
