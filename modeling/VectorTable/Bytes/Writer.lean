import VectorTable.Run
import VectorTable.Error

/-! Writers are runs whose trail is the bytes written so far. A device with room
for a limited number of bytes turns a longer output into a device error. -/
namespace VectorTable

abbrev Writer := Run UInt8 Error

namespace Writer

def put (bytes : List UInt8) : Writer Unit := Run.tellAll bytes

def fail {α : Type} (e : Error) : Writer α := Run.fail e

/-- All bytes of a writer that succeeds. -/
def output (w : Writer Unit) : Except Error (List UInt8) := w.result.map fun _ => w.trail

/-- The output of a writer on a device with room for `limit` bytes. -/
def outputWithin (limit : Nat) (w : Writer Unit) : Except Error (List UInt8) :=
  if w.trail.length ≤ limit then w.output else .error (.io .full)

end Writer
end VectorTable
