import VectorTable.Bytes.Order
import VectorTable.Error

/-! Memory. A block of memory has fewer than 2^63 bytes, and a program that asks for a longer one
ends where it stands. Almost every block is as long as bytes that were read or given before; the
blocks that are asked for by name are those whose length is a matter of numbers alone: a matrix of
zeros, a matrix of fresh cells, and a matrix put together from two. Shorter blocks are taken to be
there whenever they are asked for. -/
namespace VectorTable

/-- No block of memory has this many bytes. -/
def blockLimit : Nat := 2 ^ 63

/-- Ask for a block of so many bytes. -/
def allocate (bytes : Nat) : Except Error Unit :=
  if bytes < blockLimit then .ok () else .error .outOfMemory

theorem allocate_of_lt {bytes : Nat} (h : bytes < blockLimit) : allocate bytes = .ok () := if_pos h

theorem allocate_of_le {bytes : Nat} (h : blockLimit ≤ bytes) :
    allocate bytes = .error .outOfMemory := if_neg (Nat.not_lt.mpr h)

end VectorTable
