import VectorTable.Number.Binary

/-! Decimal text of binary numbers. The digits are the fewest that read back as
the same number, and of those the nearest to it, a tie going away from zero.
They are searched for on finer and finer decimal grids, where only the two
neighbours of the number need a look. How digits are laid out is a matter of
each output and is a record. -/
namespace VectorTable

/-- A positive decimal number, `digits * 10 ^ exponent`. -/
structure Decimal where
  digits : Nat
  exponent : Int
  deriving DecidableEq, Repr

def decimalLength (n : Nat) : Nat := (Nat.toDigits 10 n).length

/-- The largest `k` with `10 ^ k ≤ n / d`, for positive numbers. -/
def log10Quotient (n d : Nat) : Int :=
  if d ≤ n then decimalLength (n / d) - 1 else -(decimalLength ((d - 1) / n) : Int)

/-- The interval of numbers that round to the same pattern: its ends and the
number itself in quarters of the last place, and whether the ends belong to it. -/
structure RoundingInterval where
  low : Nat
  middle : Nat
  high : Nat
  closed : Bool

def Binary.interval (f : Binary) (m : Nat) (e : Int) : RoundingInterval :=
  let gap := if m = f.fractionSize ∧ f.leastExponent < e then 1 else 2
  ⟨4 * m - gap, 4 * m, 4 * m + 2, m % 2 = 0⟩

namespace Decimal

/-- Whether a number on the grid `10 ^ g` lies in an interval whose quarters are
`n / d` each. -/
def inside (i : RoundingInterval) (n d : Nat) (c : Nat) (g : Int) : Bool :=
  let c := c * d * 10 ^ g.toNat
  let low := i.low * n * 10 ^ (-g).toNat
  let high := i.high * n * 10 ^ (-g).toNat
  if i.closed then low ≤ c && c ≤ high else low < c && c < high

/-- The number of the grid `10 ^ g` that lies in the interval, the nearer one if
both neighbours do. -/
def onGrid (i : RoundingInterval) (n d : Nat) (g : Int) : Option Nat :=
  let num := i.middle * n * 10 ^ (-g).toNat
  let den := d * 10 ^ g.toNat
  let below := num / den
  let above := below + 1
  match inside i n d below g, inside i n d above g with
  | true, true => some (if 2 * (num % den) < den then below else above)
  | true, false => some below
  | false, true => some above
  | false, false => none

/-- The first hit among `fuel` grids, each ten times finer than the one before. -/
def search (i : RoundingInterval) (n d : Nat) : Nat → Int → Decimal
  | 0, g => ⟨i.middle * n * 10 ^ (-g).toNat / (d * 10 ^ g.toNat), g⟩
  | fuel + 1, g =>
    match onGrid i n d g with
    | some c => ⟨c, g⟩
    | none => search i n d fuel (g - 1)

/-- The shortest decimal of the positive number `m * 2 ^ e` of a format. -/
def shortest (f : Binary) (m : Nat) (e : Int) : Decimal :=
  let (n, d) := fraction 1 (e - 2)
  let i := f.interval m e
  search i n d 17 (log10Quotient (i.middle * n) d)

/-- The digits as text, without zeros at the end, and the power of ten of the
place before the first digit. -/
def text (x : Decimal) : List Char × Int :=
  let all := Nat.toDigits 10 x.digits
  ((all.reverse.dropWhile (· = '0')).reverse, all.length + x.exponent)

end Decimal

/-- How an output writes numbers. -/
structure NumberLayout where
  /-- Whether whole numbers end in `.0`. -/
  wholeMark : Bool
  /-- The powers of ten that are written without an exponent, all of them if absent. -/
  positional : Option (Int × Int)
  nan : String

namespace NumberLayout

def zeros (n : Nat) : List Char := List.replicate n '0'

def place (layout : NumberLayout) (digits : List Char) (point : Int) : List Char :=
  if point ≤ 0 then '0' :: '.' :: (zeros (-point).toNat ++ digits)
  else if digits.length ≤ point.toNat then
    digits ++ zeros (point.toNat - digits.length) ++ (if layout.wholeMark then ['.', '0'] else [])
  else digits.take point.toNat ++ '.' :: digits.drop point.toNat

def withExponent (digits : List Char) (power : Int) : List Char :=
  let tail := digits.drop 1
  digits.take 1 ++ (if tail.isEmpty then [] else '.' :: tail) ++ 'e' :: (toString power).toList

def isPositional (layout : NumberLayout) (power : Int) : Bool :=
  match layout.positional with
  | none => true
  | some (least, past) => least ≤ power && power < past

def magnitude (layout : NumberLayout) (f : Binary) (m : Nat) (e : Int) : List Char :=
  if m = 0 then '0' :: (if layout.wholeMark then ['.', '0'] else [])
  else
    let (digits, point) := (Decimal.shortest f m e).text
    if layout.isPositional (point - 1) then layout.place digits point
    else withExponent digits (point - 1)

def write (layout : NumberLayout) (f : Binary) (bits : Nat) : String :=
  match f.decode bits with
  | .nan => layout.nan
  | .infinite negative => if negative then "-inf" else "inf"
  | .finite negative m e =>
    String.ofList ((if negative then ['-'] else []) ++ layout.magnitude f m e)

/-- Messages show numbers without an exponent and whole ones without a point. -/
def plain : NumberLayout := ⟨false, none, "NaN"⟩

/-- Debug forms have a point or an exponent, and the exponent from `10 ^ 16` on
and below `10 ^ -4`. -/
def debug : NumberLayout := ⟨true, some (-4, 16), "NaN"⟩

/-- Configuration files have a point and no exponent. -/
def file : NumberLayout := ⟨true, none, "nan"⟩

end NumberLayout

namespace Single

def plain (x : Single) : String := NumberLayout.plain.write .single x.bits.toNat

def debug (x : Single) : String := NumberLayout.debug.write .single x.bits.toNat

end Single

/-- The pattern, in double precision and without a sign, nearest to the decimal
number `digits * 10 ^ exponent`. -/
def Binary.ofDecimal (digits : Nat) (exponent : Int) : Nat :=
  let power := decimalLength digits + exponent
  if digits = 0 ∨ power < -400 then 0
  else if 400 < power then Binary.double.infinity
  else Binary.double.roundQuotient (digits * 10 ^ exponent.toNat) (10 ^ (-exponent).toNat)

/-- A number in double precision rounded to single precision. -/
def Single.ofDouble (bits : Nat) : Single := Single.ofReal (Binary.double.decode bits)

end VectorTable
