import VectorTable.Cell

/-! How a fresh matrix is filled. The randomness is an argument: a noise answers
the `k`-th draw with 24 random bits, and a filling turns draws into cells in
single precision, which are then converted to the type of the matrix. -/
namespace VectorTable

inductive Filling where
  | zeros
  | normal (mean std : Single)
  | uniform (low high : Single)
  | xavier
  deriving DecidableEq, Repr

/-- A source of random bits; of every draw the low 24 bits are used. -/
structure Noise where
  draw : Nat → UInt32

def Noise.unit (noise : Noise) (k : Nat) : Nat := (noise.draw k).toNat % 2 ^ 24

/-- The whole part of a square root, found bit by bit from bit `k` down. -/
def sqrtFrom (n : Nat) : Nat → Nat → Nat
  | 0, root => if (root + 1) ^ 2 ≤ n then root + 1 else root
  | k + 1, root =>
    let next := root + 2 ^ (k + 1)
    sqrtFrom n k (if next ^ 2 ≤ n then next else root)

def sqrtFloor (n : Nat) : Nat := sqrtFrom n (n.log2 / 2 + 1) 0

namespace Single

/-- The units of single precision in a whole. -/
def unitsPerOne : Nat := 2 ^ 149

/-- The number nearest to a whole one. -/
def ofWhole (n : Nat) : Single := ofUnits (n * unitsPerOne : Nat) 1

/-- A whole number divided by one that is not negative, to the nearest number. -/
def quotient (n : Nat) (x : Single) : Single :=
  match x.units? with
  | some units =>
    if units = 0 then ofReal (.infinite false)
    else ofUnits (n * unitsPerOne * unitsPerOne : Nat) units.natAbs
  | none => ⟨0⟩

/-- The square root of a number that is not negative, to the nearest number. No root lies halfway
between two numbers or so near to it that the bits below a unit would count. -/
def root (x : Single) : Single :=
  match x.units? with
  | some units => ofUnits (sqrtFloor (units.natAbs * unitsPerOne)) 1
  | none => x

end Single

namespace Filling

/-- Whether the cells hang on the noise. -/
def isRandom : Filling → Bool
  | .zeros => false
  | .normal _ std => std.units? != some 0
  | .uniform .. | .xavier => true

/-- The bound `sqrt (6 / n)` of the range that suits a matrix whose sides add up
to `n`. The sum, the quotient and the root are rounded one after the other. -/
def xavierBound (n : Nat) : Single := (Single.quotient 6 (Single.ofWhole n)).root

/-- Cells spread evenly over `low .. high`. The ends must be finite and in order,
and their distance must be finite in single precision. -/
def uniformCell (noise : Noise) (low high : Single) : Except TensorFault (Nat → Single) :=
  match low.units?, high.units? with
  | some a, some b =>
    if b ≤ a then .error .emptyRange
    else if !(Single.ofUnits (b - a) 1).isFinite then .error .unboundedSpread
    else .ok fun k => Single.ofUnits (a * 2 ^ 24 + (b - a) * noise.unit k) (2 ^ 24)
  | _, _ => .error .unboundedSpread

/-- Cells spread around a mean, each the sum of twelve draws less its expectation.
Without spread every cell is the mean itself, and so it is when the mean is not
finite. -/
def normalCell (noise : Noise) (mean std : Single) : Except TensorFault (Nat → Single) :=
  match std.units?, mean.units? with
  | none, _ => .error .unboundedSpread
  | some _, none => .ok fun _ => mean
  | some s, some m =>
    if s = 0 then .ok fun _ => mean
    else .ok fun k =>
      let sum := (List.range 12).foldl (fun sum j => sum + noise.unit (12 * k + j)) 0
      Single.ofUnits (m * 2 ^ 24 + s * ((sum : Int) - 6 * 2 ^ 24)) (2 ^ 24)

/-- The cells of a filling in single precision, in row-major order. -/
def cell (filling : Filling) (noise : Noise) (rows cols : Nat) :
    Except TensorFault (Nat → Single) :=
  match filling with
  | .zeros => .ok fun _ => ⟨0⟩
  | .normal mean std => normalCell noise mean std
  | .uniform low high => uniformCell noise low high
  | .xavier =>
    let bound := xavierBound (rows + cols)
    uniformCell noise (Single.ofUnits (-(bound.units?.getD 0)) 1) bound

end Filling

/-- The matrix of cells given in single precision. -/
def Tensor.ofSingles (rows cols : Nat) (cell : Nat → Single) : Tensor where
  elementType := .storable .float32
  dims := [rows, cols]
  data := (List.range (rows * cols)).flatMap fun k => littleEndian 4 (cell k).bits.toNat
  contiguous := true
  length_data := by
    rw [length_flatMap_const fun _ _ => length_littleEndian 4 _]
    simp [cellCount, ElementType.width, DataType.width]

/-- A fresh matrix. Cells that come from a range or are spread around a mean are made in single
precision, in a block of their own, and are converted into another one. -/
def Filling.matrix (filling : Filling) (noise : Noise) (type : DataType) (rows cols : Nat) :
    Except Error Tensor :=
  match filling with
  | .zeros => Tensor.zeros type rows cols
  | _ => do
    allocate (rows * cols * DataType.float32.width)
    let cell ← (filling.cell noise rows cols).mapError Error.tensor
    allocate (rows * cols * type.width)
    .ok ((Tensor.ofSingles rows cols cell).convert (.storable type))

end VectorTable
