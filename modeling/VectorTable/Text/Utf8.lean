/-! UTF-8 as a code on lists of bytes. Encoding works character by character.
Decoding takes the shortest faithful reading only, so overlong forms,
surrogates and values past U+10FFFF are refused, and a refusal says where the
valid text ends and how long the offending part is. -/
namespace VectorTable.Utf8

/-- The bytes of one character. -/
def encodeChar (c : Char) : List UInt8 :=
  let v := c.toNat
  if v < 0x80 then [UInt8.ofNat v]
  else if v < 0x800 then [UInt8.ofNat (0xC0 + v / 64), UInt8.ofNat (0x80 + v % 64)]
  else if v < 0x10000 then
    [UInt8.ofNat (0xE0 + v / 4096), UInt8.ofNat (0x80 + v / 64 % 64), UInt8.ofNat (0x80 + v % 64)]
  else
    [UInt8.ofNat (0xF0 + v / 262144), UInt8.ofNat (0x80 + v / 4096 % 64),
     UInt8.ofNat (0x80 + v / 64 % 64), UInt8.ofNat (0x80 + v % 64)]

def encode (s : String) : List UInt8 := s.toList.flatMap encodeChar

/-- How a text is broken: the length of its longest valid beginning, and the
length of the invalid part after it, absent when the text merely ends too early. -/
structure Fault where
  validUpTo : Nat
  width : Option Nat
  deriving DecidableEq, Repr

def Fault.message (f : Fault) : String :=
  match f.width with
  | some n => s!"invalid utf-8 sequence of {n} bytes from index {f.validUpTo}"
  | none => s!"incomplete utf-8 byte sequence from index {f.validUpTo}"

def isTail (b : UInt8) : Bool := 0x80 ≤ b && b ≤ 0xBF

def payload (b : UInt8) : Nat := b.toNat % 64

/-- The second bytes that may follow a leading byte of a three-byte form. -/
def secondOfThree (a b : UInt8) : Bool :=
  if a == 0xE0 then 0xA0 ≤ b && b ≤ 0xBF
  else if a == 0xED then 0x80 ≤ b && b ≤ 0x9F
  else isTail b

/-- The second bytes that may follow a leading byte of a four-byte form. -/
def secondOfFour (a b : UInt8) : Bool :=
  if a == 0xF0 then 0x90 ≤ b && b ≤ 0xBF
  else if a == 0xF4 then 0x80 ≤ b && b ≤ 0x8F
  else isTail b

/-- The character that a leading byte and the bytes after it begin with, and how
many of those bytes it takes; or the width of the invalid part. -/
def decodeChar (a : UInt8) (rest : List UInt8) : Except (Option Nat) (Char × Nat) :=
  if a < 0x80 then .ok (Char.ofNat a.toNat, 0)
  else if 0xC2 ≤ a && a ≤ 0xDF then
    match rest with
    | [] => .error none
    | b :: _ =>
      if isTail b then .ok (Char.ofNat (a.toNat % 32 * 64 + payload b), 1) else .error (some 1)
  else if 0xE0 ≤ a && a ≤ 0xEF then
    match rest with
    | [] => .error none
    | b :: rest =>
      if !secondOfThree a b then .error (some 1)
      else match rest with
        | [] => .error none
        | c :: _ =>
          if isTail c then
            .ok (Char.ofNat (a.toNat % 16 * 4096 + payload b * 64 + payload c), 2)
          else .error (some 2)
  else if 0xF0 ≤ a && a ≤ 0xF4 then
    match rest with
    | [] => .error none
    | b :: rest =>
      if !secondOfFour a b then .error (some 1)
      else match rest with
        | [] => .error none
        | c :: rest =>
          if !isTail c then .error (some 2)
          else match rest with
            | [] => .error none
            | d :: _ =>
              if isTail d then
                .ok (Char.ofNat (a.toNat % 8 * 262144 + payload b * 4096 + payload c * 64 +
                  payload d), 3)
              else .error (some 3)
  else .error (some 1)

def decodeFrom (pos : Nat) (done : List Char) : List UInt8 → Except Fault (List Char)
  | [] => .ok done.reverse
  | a :: rest =>
    match decodeChar a rest with
    | .error width => .error ⟨pos, width⟩
    | .ok (c, k) => decodeFrom (pos + 1 + k) (c :: done) (rest.drop k)
  termination_by bytes => bytes.length
  decreasing_by simp only [List.length_drop, List.length_cons]; omega

def decode (bytes : List UInt8) : Except Fault String :=
  (decodeFrom 0 [] bytes).map String.ofList

end VectorTable.Utf8
