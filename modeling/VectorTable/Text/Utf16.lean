/-! UTF-16 as a code on lists of units. A character past U+FFFF takes a pair of
surrogates, and a surrogate outside such a pair is refused. -/
namespace VectorTable.Utf16

def encodeChar (c : Char) : List UInt16 :=
  let v := c.toNat
  if v < 0x10000 then [UInt16.ofNat v]
  else [UInt16.ofNat (0xD800 + (v - 0x10000) / 1024), UInt16.ofNat (0xDC00 + (v - 0x10000) % 1024)]

def encode (s : String) : List UInt16 := s.toList.flatMap encodeChar

def isHigh (u : UInt16) : Bool := 0xD800 ≤ u && u ≤ 0xDBFF
def isLow (u : UInt16) : Bool := 0xDC00 ≤ u && u ≤ 0xDFFF

def decodeUnits : List UInt16 → Option (List Char)
  | [] => some []
  | [u] => if isHigh u || isLow u then none else some [Char.ofNat u.toNat]
  | u :: v :: rest =>
    if isHigh u then
      if isLow v then
        (Char.ofNat (0x10000 + (u.toNat - 0xD800) * 1024 + (v.toNat - 0xDC00)) :: ·) <$>
          decodeUnits rest
      else none
    else if isLow u then none
    else (Char.ofNat u.toNat :: ·) <$> decodeUnits (v :: rest)

def decode (units : List UInt16) : Option String := (decodeUnits units).map String.ofList

end VectorTable.Utf16
