import VectorTable.Bytes.Order
import VectorTable.Bytes.Source
import VectorTable.Bytes.Writer

/-! The primitives of the persisted format: big-endian words, counts, strings
with a two-byte length. Every read names what it reads, so that a short input is
reported by the name of the missing value. -/
namespace VectorTable.Wire

/-- The longest byte string a reader takes (16 MiB). -/
def maxBytes : Nat := 16 * 1024 * 1024

def readU8 (what : String) : Reader UInt8 := do
  let b ← Reader.exactly 1 what
  pure (UInt8.ofNat (ofBigEndian b))

/-- Any byte but zero is true. -/
def readBool (what : String) : Reader Bool := do
  let b ← readU8 what
  pure (b != 0)

def readU16 (what : String) : Reader UInt16 := do
  let b ← Reader.exactly 2 what
  pure (UInt16.ofNat (ofBigEndian b))

def readI32 (what : String) : Reader Int32 := do
  let b ← Reader.exactly 4 what
  pure (Int32.ofNat (ofBigEndian b))

def readI64 (what : String) : Reader Int64 := do
  let b ← Reader.exactly 8 what
  pure (Int64.ofNat (ofBigEndian b))

/-- A count or a length: a word that must not be negative. -/
def readLen (what : String) : Reader Nat := do
  let n ← readI32 what
  if n < 0 then Reader.fail (.malformed (.negative what n.toInt))
  else pure n.toNatClampNeg

def readBytes (len : Nat) (what : String) : Reader (List UInt8) :=
  if maxBytes < len then Reader.fail (.malformed (.tooLarge what len))
  else Reader.exactly len what

def readUtf (what : String) : Reader String := do
  let len ← readU16 what
  let bytes ← readBytes len.toNat what
  match Utf8.decode bytes with
  | .ok s => pure s
  | .error _ => Reader.fail (.malformed (.notUtf8 what))

def writeU8 (v : UInt8) : Writer Unit := Writer.put [v]

def writeBool (v : Bool) : Writer Unit := writeU8 (if v then 1 else 0)

def writeU16 (v : UInt16) : Writer Unit := Writer.put (bigEndian 2 v.toNat)

def writeI32 (v : Int32) : Writer Unit := Writer.put (bigEndian 4 v.toUInt32.toNat)

def writeI64 (v : Int64) : Writer Unit := Writer.put (bigEndian 8 v.toUInt64.toNat)

/-- A count or a length, which must fit a signed word. -/
def writeLen (len : Nat) (what : String) : Writer Unit :=
  if len < 2 ^ 31 then writeI32 (Int32.ofNat len)
  else Writer.fail (.malformed (.lengthField what len))

def writeUtf (s : String) : Writer Unit :=
  let bytes := Utf8.encode s
  if bytes.length < 2 ^ 16 then do
    writeU16 (UInt16.ofNat bytes.length)
    Writer.put bytes
  else Writer.fail (.malformed (.stringLength bytes.length))

end VectorTable.Wire
