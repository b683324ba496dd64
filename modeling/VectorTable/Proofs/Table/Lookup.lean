import VectorTable.Proofs.Table.Answers
import VectorTable.Proofs.Table.Coherence

/-! Looking items up. A batch of items becomes a list of slots, the slots become a tensor of
indices, and the indices select rows. A tensor of slots says as whole numbers what the slots are;
and a table that has come to be in one of the ways that there are has a row for each of its
slots. So the only way to fail is in the policy: it refuses an item, or it answers with a slot
that has no row. -/
namespace VectorTable

namespace Tensor

end Tensor

namespace Fallthrough

variable {α : Type} [Item α] {policy : Fallthrough α}

end Fallthrough

namespace Table

variable {α : Type} [DecidableEq α] [Item α]

end Table
end VectorTable
