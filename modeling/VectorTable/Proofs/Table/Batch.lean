import VectorTable.Table
import VectorTable.Proofs.Batch
import VectorTable.Proofs.Codec

/-! Batches of items. A batch puts the items that the table lacks to the policy in one
call and writes the answers at their places, which fills the gaps in order. As long as the
policy answers item by item, that comes to the same as embedding one item after the other,
down to the error that comes first. -/
namespace VectorTable

/-- Answers come one for each item. -/
theorem length_of_mapM_eq_ok {α β ε : Type} {f : α → Except ε β} {items : List α}
    {answers : List β} (h : items.mapM f = .ok answers) : answers.length = items.length := by
  induction items generalizing answers with
  | nil =>
    cases h
    rfl
  | cons item rest ih =>
    rw [List.mapM_cons] at h
    obtain ⟨answer, -, h⟩ := except_bind_eq_ok.mp h
    obtain ⟨others, ho, h⟩ := except_bind_eq_ok.mp h
    cases h
    rw [List.length_cons, List.length_cons, ih ho]

variable {α : Type} [Item α]

namespace Fallthrough

/-- A batch is served item by item. Only a handler may do otherwise. -/
def ItemByItem : Fallthrough α → Prop
  | .custom handler => handler.embedBatch = fun items => items.mapM handler.embed
  | .none | .defaultRow | .defaultItem _ => True

omit [Item α] in
theorem mapM_reserved (items : List α) :
    items.mapM (fun _ => (.ok reservedSlot : Except Error Slot)) =
      .ok (List.replicate items.length reservedSlot) := by
  rw [← List.map_const]
  exact List.mapM_pure

theorem ItemByItem.embedBatch_eq {policy : Fallthrough α} (h : policy.ItemByItem)
    (items : List α) : policy.embedBatch items = items.mapM policy.embed := by
  cases policy with
  | none =>
    cases items with
    | nil => rfl
    | cons item rest =>
      rw [List.mapM_cons]
      rfl
  | defaultRow => exact (mapM_reserved items).symm
  | defaultItem item => exact (mapM_reserved items).symm
  | custom handler => exact congrFun h items

end Fallthrough

namespace Table

variable [DecidableEq α]

/-- The items that the table lacks, in order. -/
def misses (t : Table α) (items : List α) : List α :=
  items.filter fun item => (t.index.slot? item).isNone

/-- What the walk along a batch and the writing of the answers come to. -/
theorem embedBatch_eq (t : Table α) (items : List α) : t.embedBatch items =
    if (t.misses items).isEmpty then .ok (fillGaps (items.map t.index.slot?) [])
    else t.fallthrough.embedBatch (t.misses items) >>= fun answers =>
      if answers.length ≠ (t.misses items).length then
        .error (.configuration (.answerCount answers.length (t.misses items).length))
      else .ok (fillGaps (items.map t.index.slot?) answers) := by
  have h := Batch.follows_ofItems t.index items
  have hmisses : (Batch.ofItems t.index items).misses.toList = t.misses items := h.misses
  have hempty : (Batch.ofItems t.index items).misses.isEmpty = (t.misses items).isEmpty := by
    rw [← hmisses, Array.isEmpty_toList]
  have hsize : (Batch.ofItems t.index items).misses.size = (t.misses items).length := by
    rw [← hmisses, Array.length_toList]
  have hfound : (Batch.ofItems t.index items).slots.toList =
      fillGaps (items.map t.index.slot?) [] := by
    rw [h.slots, fillGaps_nil, List.map_map]
    rfl
  unfold embedBatch
  simp only [hmisses, hempty, hsize, hfound, h.scatter_eq]

/-- One item after the other: the answers for the misses, put into the gaps. -/
theorem mapM_embedOne (t : Table α) (items : List α) :
    items.mapM t.embedOne =
      fillGaps (items.map t.index.slot?) <$> (t.misses items).mapM t.fallthrough.embed := by
  induction items with
  | nil => rfl
  | cons item rest ih =>
    rw [List.mapM_cons, ih]
    cases h : t.index.slot? item with
    | some slot =>
      have hone : t.embedOne item = .ok slot := by rw [embedOne, h]
      have hmiss : t.misses (item :: rest) = t.misses rest := by simp [misses, h]
      rw [hone, hmiss, List.map_cons, h]
      cases (t.misses rest).mapM t.fallthrough.embed <;> rfl
    | none =>
      have hone : t.embedOne item = t.fallthrough.embed item := by rw [embedOne, h]
      have hmiss : t.misses (item :: rest) = item :: t.misses rest := by simp [misses, h]
      rw [hone, hmiss, List.map_cons, h, List.mapM_cons]
      cases t.fallthrough.embed item with
      | error e => rfl
      | ok slot => cases (t.misses rest).mapM t.fallthrough.embed <;> rfl

/-- Under every policy that answers item by item, a batch has the slots that its items
have one by one, or the error of the first item that has none. -/
theorem embedBatch_eq_mapM {t : Table α} (h : t.fallthrough.ItemByItem) (items : List α) :
    t.embedBatch items = items.mapM t.embedOne := by
  rw [mapM_embedOne, embedBatch_eq, h.embedBatch_eq]
  split_ifs with hm
  · rw [List.isEmpty_iff.mp hm]
    rfl
  · cases ha : (t.misses items).mapM t.fallthrough.embed with
    | error e => rfl
    | ok answers =>
      have hlength : answers.length = (t.misses items).length := length_of_mapM_eq_ok ha
      simp only [bind, Except.bind, Functor.map, Except.map, hlength, ne_eq, not_true_eq_false,
        if_false]

/-- Sends unknown items to the row of their own number, and refuses those from 100 on. -/
def fussy : Handler UInt32 where
  hasItem := (· < 100)
  embed item := if item < 100 then .ok item else .error (.itemCodec (.refused "too large"))
  unembed _ := .ok none

def fussyPair : Table UInt32 :=
  ⟨⟨[(5, 1), (9, 2)], 3⟩, Tensor.zeroed .float32 3 2, 2, .float32, true, .custom fussy,
    defaultShapes⟩

/-- Hits, misses and repetitions, and two misses that are refused. -/
theorem embedBatch_fussyPair : fussyPair.fallthrough.ItemByItem ∧
    fussyPair.embedBatch [9, 70, 5, 71, 70] = .ok [2, 70, 1, 71, 70] ∧
    fussyPair.embedBatch [70, 5, 100, 9, 200] = .error (.itemCodec (.refused "too large")) := by
  have h : fussyPair.fallthrough.ItemByItem := rfl
  exact ⟨h, embedBatch_eq_mapM h _, embedBatch_eq_mapM h _⟩

end Table
end VectorTable
