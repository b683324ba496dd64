import VectorTable.Proofs.Table.Batch

/-! The answers of a handler. A handler may answer a batch with whatever it likes: its slots are
taken if there is one for each item that the table lacks, and then each goes to the item that it
was given for. Items that the table holds have their own slots, and as long as there are no
others, the handler is not asked. -/
namespace VectorTable.Table

/-- What comes to stand at a position: the slot found there, or the answer whose number is that
of the gaps before it. -/
theorem getElem?_fillGaps (found : List (Option Slot)) (answers : List Slot) (p : Nat) :
    (fillGaps found answers)[p]? = found[p]?.map fun slot? =>
      slot?.getD (answers.getD ((found.take p).countP Option.isNone) reservedSlot) := by
  -- every gap uses up one answer, so the answers are open in the induction
  induction found generalizing answers p with
  | nil => simp [fillGaps]
  | cons slot? rest ih =>
    cases p with
    | zero => cases slot? <;> cases answers <;> simp [fillGaps]
    | succ p =>
      cases slot? with
      | some slot => simp [fillGaps, ih]
      | none => cases answers <;> simp [fillGaps, ih]

theorem length_fillGaps (found : List (Option Slot)) (answers : List Slot) :
    (fillGaps found answers).length = found.length := by
  induction found generalizing answers with
  | nil => rfl
  | cons slot? rest ih =>
    cases slot? with
    | some slot => simp [fillGaps, ih]
    | none => cases answers <;> simp [fillGaps, ih]

/-- Where there is no gap, the slots stay as they were found. -/
theorem map_some_fillGaps {found : List (Option Slot)} (h : none ∉ found) (answers : List Slot) :
    (fillGaps found answers).map some = found := by
  induction found with
  | nil => rfl
  | cons slot? rest ih =>
    rw [List.mem_cons, not_or] at h
    cases slot? with
    | some slot => simp [fillGaps, ih h.2]
    | none => exact absurd rfl h.1

variable {α : Type} [DecidableEq α] [Item α]

theorem misses_eq_nil_iff {t : Table α} {items : List α} :
    t.misses items = [] ↔ ∀ item ∈ items, t.hasItem item = true := by
  unfold misses hasItem Index.contains
  rw [List.filter_eq_nil_iff]
  simp only [Bool.not_eq_true, Option.isNone_eq_false_iff]

theorem countP_isNone_slots (t : Table α) (items : List α) :
    (items.map t.index.slot?).countP Option.isNone = (t.misses items).length := by
  rw [List.countP_map, List.countP_eq_length_filter]
  rfl

/-- `slots` has the slot of every item that the table holds, and for every other item the answer
whose number is that of the misses before it. -/
structure Answered (t : Table α) (items : List α) (answers slots : List Slot) : Prop where
  length_eq : slots.length = items.length
  held : ∀ (p : Nat) (item : α) (slot : Slot), items[p]? = some item →
    t.index.slot? item = some slot → slots[p]? = some slot
  missed : ∀ (p : Nat) (item : α), items[p]? = some item → t.index.slot? item = none →
    (t.misses items)[(t.misses (items.take p)).length]? = some item ∧
      slots[p]? = answers[(t.misses (items.take p)).length]?

theorem misses_append (t : Table α) (front back : List α) :
    t.misses (front ++ back) = t.misses front ++ t.misses back := List.filter_append _ _

theorem misses_cons_of_none {t : Table α} {item : α} (h : t.index.slot? item = none)
    (rest : List α) : t.misses (item :: rest) = item :: t.misses rest := by simp [misses, h]

/-- A missing item is found among the misses behind those that come before it. -/
theorem misses_getElem? {t : Table α} {items : List α} {p : Nat} {item : α}
    (hp : items[p]? = some item) (h : t.index.slot? item = none) :
    (t.misses items)[(t.misses (items.take p)).length]? = some item := by
  obtain ⟨hlt, rfl⟩ := List.getElem?_eq_some_iff.mp hp
  have hsplit : items = items.take p ++ items[p] :: items.drop (p + 1) := by simp
  have hmisses : t.misses items =
      t.misses (items.take p) ++ items[p] :: t.misses (items.drop (p + 1)) := by
    conv_lhs => rw [hsplit]
    rw [misses_append, misses_cons_of_none h]
  rw [hmisses]
  simp

theorem answered_fillGaps {t : Table α} {items : List α} {answers : List Slot}
    (h : answers.length = (t.misses items).length) :
    t.Answered items answers (fillGaps (items.map t.index.slot?) answers) where
  length_eq := by rw [length_fillGaps, List.length_map]
  held p item slot hp hs := by
    rw [getElem?_fillGaps, List.getElem?_map, hp]
    simp [hs]
  missed p item hp hs := by
    have hmiss := misses_getElem? hp hs
    have hlt := (List.getElem?_eq_some_iff.mp hmiss).1
    rw [← h] at hlt
    refine ⟨hmiss, ?_⟩
    rw [getElem?_fillGaps, List.getElem?_map, hp, ← List.map_take, countP_isNone_slots]
    simp [hs, hlt]

/-- Where the table holds every item, a batch has their slots, under any policy there may be.
Where it lacks some, the handler is asked for these, in order and with their repetitions: it may
fail, it may give too many answers or too few, and else each answer goes where it belongs. -/
theorem embedBatch_answered {t : Table α} {handler : Handler α}
    (h : t.fallthrough = .custom handler) (items : List α) :
    ((∀ item ∈ items, t.hasItem item = true) → ∃ slots,
      slots.map some = items.map t.index.slot? ∧ ∀ policy : Fallthrough α,
        ({ t with fallthrough := policy } : Table α).embedBatch items = .ok slots) ∧
    ((∃ item ∈ items, t.hasItem item = false) →
      (∀ e, handler.embedBatch (t.misses items) = .error e → t.embedBatch items = .error e) ∧
      ∀ answers, handler.embedBatch (t.misses items) = .ok answers →
        (answers.length ≠ (t.misses items).length → t.embedBatch items =
          .error (.configuration (.answerCount answers.length (t.misses items).length))) ∧
        (answers.length = (t.misses items).length →
          ∃ slots, t.embedBatch items = .ok slots ∧ t.Answered items answers slots)) := by
  constructor
  · intro hall
    have hnil := misses_eq_nil_iff.mpr hall
    have hfound : none ∉ items.map t.index.slot? := by
      intro hm
      obtain ⟨item, hi, hnone⟩ := List.mem_map.mp hm
      have hheld := hall item hi
      rw [hasItem, Index.contains, hnone] at hheld
      cases hheld
    refine ⟨fillGaps (items.map t.index.slot?) [], map_some_fillGaps hfound [], ?_⟩
    intro policy
    rw [embedBatch_eq]
    exact if_pos (List.isEmpty_iff.mpr hnil)
  · rintro ⟨item, hm, hmiss⟩
    have hne : ¬ (t.misses items).isEmpty = true := by
      intro hnil
      have hall := misses_eq_nil_iff.mp (List.isEmpty_iff.mp hnil) item hm
      rw [hall] at hmiss
      cases hmiss
    have hbatch : t.embedBatch items = handler.embedBatch (t.misses items) >>= fun answers =>
        if answers.length ≠ (t.misses items).length then
          .error (.configuration (.answerCount answers.length (t.misses items).length))
        else .ok (fillGaps (items.map t.index.slot?) answers) := by
      rw [embedBatch_eq, if_neg hne, h]
      rfl
    constructor
    · intro e he
      rw [hbatch, he]
      rfl
    · intro answers ha
      rw [hbatch, ha]
      constructor
      · intro hlength
        exact if_pos hlength
      · intro hlength
        exact ⟨_, if_neg (not_not.mpr hlength), answered_fillGaps hlength⟩

/-- Numbers its answers from 7 on, save that it will not answer for an item 0 and has nothing to
say of a lone item. -/
def counting : Handler UInt32 where
  hasItem _ := true
  embed _ := .ok 0
  unembed _ := .ok none
  embedBatch items :=
    if 0 ∈ items then .error (.itemCodec (.refused "zero"))
    else if items.length = 1 then .ok []
    else .ok ((List.range items.length).map fun k => UInt32.ofNat (7 + k))

def countedPair : Table UInt32 :=
  ⟨⟨[(5, 1), (9, 2)], 3⟩, Tensor.zeroed .float32 3 2, 2, .float32, true, .custom counting,
    defaultShapes⟩

/-- Misses before, between and behind the items that the table holds, one of them twice. -/
theorem embedBatch_countedPair : countedPair.fallthrough = .custom counting ∧
    (∃ slots, countedPair.embedBatch [4, 9, 3, 5, 4] = .ok slots ∧
      slots[0]? = some 7 ∧ slots[1]? = some 2 ∧ slots[2]? = some 8 ∧ slots[4]? = some 9) ∧
    countedPair.embedBatch [9, 4] = .error (.configuration (.answerCount 0 1)) ∧
    countedPair.embedBatch [4, 9, 0] = .error (.itemCodec (.refused "zero")) := by
  have h : countedPair.fallthrough = .custom counting := rfl
  refine ⟨h, ?_, ?_, ?_⟩
  · obtain ⟨-, hmiss⟩ := embedBatch_answered h [4, 9, 3, 5, 4]
    obtain ⟨slots, hs, ha⟩ := ((hmiss ⟨4, by decide, rfl⟩).2 [7, 8, 9] rfl).2 rfl
    refine ⟨slots, hs, ?_, ?_, ?_, ?_⟩
    · exact (ha.missed 0 4 rfl rfl).2
    · exact ha.held 1 9 2 rfl rfl
    · exact (ha.missed 2 3 rfl rfl).2
    · exact (ha.missed 4 4 rfl rfl).2
  · obtain ⟨-, hmiss⟩ := embedBatch_answered h [9, 4]
    exact ((hmiss ⟨4, by decide, rfl⟩).2 [] rfl).1 (by decide)
  · obtain ⟨-, hmiss⟩ := embedBatch_answered h [4, 9, 0]
    exact (hmiss ⟨4, by decide, rfl⟩).1 _ rfl

end VectorTable.Table
