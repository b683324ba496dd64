import VectorTable.Shape
import VectorTable.Proofs.Wire

/-! What the format keeps of shapes: all of a shape within the limits of a
reader. -/
namespace VectorTable.Shape

structure Storable (s : Shape) : Prop where
  rank_le : s.dims.length ≤ maxRank
  layout_le : (Utf16.encode s.layout).length ≤ maxRank

def AllStorable (shapes : List Shape) : Prop :=
  shapes.length ≤ maxShapes ∧ ∀ s ∈ shapes, s.Storable

theorem carries {s : Shape} (h : s.Storable) : Carries s.write read s := by
  have hr := h.rank_le
  have hl := h.layout_le
  unfold write read
  refine (Wire.carries_len (by unfold maxRank at hr; omega) _ _).bind ?_
  rw [if_neg (Nat.not_lt.mpr hr)]
  refine (Carries.times fun d _ => Wire.carries_i64 d _).bind ?_
  refine (Wire.carries_len (by unfold maxRank at hl; omega) _ _).bind ?_
  rw [if_neg (Nat.not_lt.mpr hl)]
  refine (Carries.times fun u _ => Wire.carries_u16 u _).map ?_
  rw [Utf16.decode_encode]
  exact Reads.pure s

theorem carries_all {shapes : List Shape} (h : AllStorable shapes) :
    Carries (writeAll shapes) readAll shapes := by
  obtain ⟨hl, hs⟩ := h
  unfold writeAll readAll
  refine (Wire.carries_len (by unfold maxShapes at hl; omega) _ _).bind ?_
  rw [if_neg (Nat.not_lt.mpr hl)]
  exact Carries.times fun s hm => carries (hs s hm)

end VectorTable.Shape
