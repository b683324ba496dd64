import VectorTable.Bytes.Order

/-! Binary floating-point formats, given by the width of the significand and of
the exponent. A bit pattern stands for an exact value, and an exact value is
rounded to the nearest pattern, ties to the even one; everything is done with
whole numbers. -/
namespace VectorTable

/-- A format with `precision` bits of significand, the leading one included, and
`exponentBits` bits of exponent. -/
structure Binary where
  precision : Nat
  exponentBits : Nat
  deriving DecidableEq, Repr

/-- What a bit pattern stands for; a finite value is `significand * 2 ^ exponent`. -/
inductive Real where
  | nan
  | infinite (negative : Bool)
  | finite (negative : Bool) (significand : Nat) (exponent : Int)
  deriving DecidableEq, Repr

/-- The quotient of two numbers rounded to the nearest whole number, a half to
the even one. -/
def roundHalfEven (a b : Nat) : Nat :=
  let q := a / b
  let twice := 2 * (a % b)
  if b < twice ∨ (twice = b ∧ q % 2 = 1) then q + 1 else q

/-- The largest `k` with `2 ^ k ≤ n / d`, for positive numbers. -/
def log2Quotient (n d : Nat) : Int :=
  let k : Int := n.log2 - d.log2
  if n * 2 ^ (-k).toNat < d * 2 ^ k.toNat then k - 1 else k

/-- The fraction that a significand and an exponent stand for. -/
def fraction (significand : Nat) (exponent : Int) : Nat × Nat :=
  (significand * 2 ^ exponent.toNat, 2 ^ (-exponent).toNat)

namespace Binary

def half : Binary := ⟨11, 5⟩
def brain : Binary := ⟨8, 8⟩
def single : Binary := ⟨24, 8⟩
def double : Binary := ⟨53, 11⟩

def fractionSize (f : Binary) : Nat := 2 ^ (f.precision - 1)
def signBit (f : Binary) : Nat := 2 ^ (f.precision - 1 + f.exponentBits)
def infinity (f : Binary) : Nat := (2 ^ f.exponentBits - 1) * f.fractionSize
def quietNan (f : Binary) : Nat := f.infinity + f.fractionSize / 2

/-- The exponent of the least positive value. -/
def leastExponent (f : Binary) : Int := 3 - (2 ^ (f.exponentBits - 1) : Nat) - f.precision

def decode (f : Binary) (bits : Nat) : Real :=
  let negative := bits / f.signBit % 2 = 1
  let body := bits % f.signBit
  let e := body / f.fractionSize
  let m := body % f.fractionSize
  if e = 2 ^ f.exponentBits - 1 then
    if m = 0 then .infinite negative else .nan
  else if e = 0 then .finite negative m f.leastExponent
  else .finite negative (m + f.fractionSize) (f.leastExponent + e - 1)

/-- The pattern, without a sign, nearest to `n / d`. A significand that rounds up
to the next power of two carries into the exponent by itself, and what passes
the largest finite pattern is infinite. -/
def roundQuotient (f : Binary) (n d : Nat) : Nat :=
  if n = 0 then 0
  else
    let e := max f.leastExponent (log2Quotient n d - (f.precision - 1 : Nat))
    let q := roundHalfEven (n * 2 ^ (-e).toNat) (d * 2 ^ e.toNat)
    min f.infinity ((e - f.leastExponent).toNat * f.fractionSize + q)

def withSign (f : Binary) (negative : Bool) (bits : Nat) : Nat :=
  if negative then f.signBit + bits else bits

def encode (f : Binary) : Real → Nat
  | .nan => f.quietNan
  | .infinite negative => f.withSign negative f.infinity
  | .finite negative m e =>
    let (n, d) := fraction m e
    f.withSign negative (f.roundQuotient n d)

def encodeInt (f : Binary) (n : Int) : Nat := f.encode (.finite (n < 0) n.natAbs 0)

/-- The pattern that a pattern of format `f` which is no number becomes in format `g`: its sign and
the leading bits of its fraction stay, and it is made quiet. -/
def carryNan (f g : Binary) (bits : Nat) : Nat :=
  let fraction := bits % f.fractionSize * g.fractionSize / f.fractionSize
  g.withSign (bits / f.signBit % 2 = 1) (g.infinity + (fraction ||| g.fractionSize / 2))

end Binary

namespace Real

/-- The whole number that is left when the part after the point is dropped; a
value without one has none. -/
def truncate : Real → Option Int
  | .finite negative m e =>
    let (n, d) := fraction m e
    some (if negative then -(n / d : Nat) else (n / d : Nat))
  | _ => none

/-- The value without the last `k` bits of its significand. -/
def dropLow (k : Nat) : Real → Real
  | .finite negative m e => .finite negative (m / 2 ^ k * 2 ^ k) e
  | r => r

def isFinite : Real → Bool
  | .finite .. => true
  | _ => false

end Real

/-- A number in single precision, by its bits. -/
structure Single where
  bits : UInt32
  deriving DecidableEq, Repr, Inhabited

namespace Single

def value (x : Single) : Real := Binary.single.decode x.bits.toNat

def ofReal (r : Real) : Single := ⟨UInt32.ofNat (Binary.single.encode r)⟩

def isFinite (x : Single) : Bool := x.value.isFinite

/-- A finite number as a multiple of the least positive one, `2 ^ -149`. -/
def units? (x : Single) : Option Int :=
  match x.value with
  | .finite negative m e =>
    let n : Int := m * 2 ^ (e - Binary.single.leastExponent).toNat
    some (if negative then -n else n)
  | _ => none

/-- The nearest number to `n / d` multiples of the least positive one. -/
def ofUnits (n : Int) (d : Nat) : Single :=
  let bits := Binary.single.roundQuotient n.natAbs (d * 2 ^ (-Binary.single.leastExponent).toNat)
  ⟨UInt32.ofNat (Binary.single.withSign (n < 0) bits)⟩

/-- The same value in double precision. -/
def widen (x : Single) : Nat := Binary.double.encode x.value

end Single
end VectorTable
