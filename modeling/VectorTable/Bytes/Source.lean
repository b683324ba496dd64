import VectorTable.Error

/-! Input bytes and readers of them. A source says what follows its bytes, the
end of the data or a device that fails, because the two are told apart: a value
cut short by the end of the data is malformed, and a failing device is reported
as such. A reader takes bytes from the front and leaves the rest. -/
namespace VectorTable

/-- What a read meets once the bytes are used up. -/
inductive Ending where
  | endOfData
  | failing (fault : IoFault)
  deriving DecidableEq, Repr

structure Source where
  bytes : List UInt8
  ending : Ending := .endOfData
  deriving DecidableEq, Repr

abbrev Reader := StateT Source (Except Error)

namespace Reader

/-- Exactly `n` bytes. Asking for none never touches the source. -/
def exactly (n : Nat) (what : String) : Reader (List UInt8) := fun s =>
  let front := s.bytes.take n
  if front.length = n then .ok (front, { s with bytes := s.bytes.drop n })
  else match s.ending with
    | .endOfData => .error (.malformed (.truncated what))
    | .failing fault => .error (.io fault)

/-- As many bytes as there are, up to `n`; only a device that fails before the
`n`-th byte is an error. -/
def upTo (n : Nat) : Reader (List UInt8) := fun s =>
  let front := s.bytes.take n
  if front.length = n then .ok (front, { s with bytes := s.bytes.drop n })
  else match s.ending with
    | .endOfData => .ok (front, { s with bytes := [] })
    | .failing fault => .error (.io fault)

def fail {α : Type} (e : Error) : Reader α := fun _ => .error e

def ofExcept {α : Type} (r : Except Error α) : Reader α := fun s => r.map (·, s)

/-- The same reader `n` times over, its answers put behind those of `done`, which
are in reverse. -/
def timesOnto {α : Type} (r : Reader α) (done : List α) : Nat → Reader (List α)
  | 0 => fun s => .ok (done.reverse, s)
  | n + 1 => fun s =>
    match r s with
    | .error e => .error e
    | .ok (a, rest) => timesOnto r (a :: done) n rest

/-- The same reader `n` times over, answers in order. -/
def times {α : Type} (n : Nat) (r : Reader α) : Reader (List α) := timesOnto r [] n

end Reader
end VectorTable
