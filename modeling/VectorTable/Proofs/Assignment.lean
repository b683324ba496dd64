import VectorTable.Proofs.Insertion

/-! Indexes made of entries. Entries make an index exactly if `Assigned` holds of them, and
`Assigned` does not ask in which order they come. An index is its entries in ascending order of
slot, and there is one such order: so the order of the entries given is forgotten, and whatever
has been done to an index, its own entries make it once more. -/
namespace VectorTable.Index

variable {α : Type}

/-- No slot comes twice, so the slots ascend from one entry to the next. -/
theorem Valid.ascending {i : Index α} (h : i.Valid) : i.entries.Pairwise fun a b => a.2 < b.2 := by
  have hne : i.entries.Pairwise fun a b => a.2 ≠ b.2 :=
    List.pairwise_map.mp h.assigned.slots_nodup
  have hboth := h.sorted.and hne
  refine hboth.imp ?_
  rintro a b ⟨hle, hab⟩
  exact UInt32.lt_of_le_of_ne hle hab

/-- Valid indexes with the same entries, in whatever order, and the same count are equal. -/
theorem Valid.eq_of_perm {i j : Index α} (hi : i.Valid) (hj : j.Valid)
    (hn : i.numItems = j.numItems) (hp : i.entries.Perm j.entries) : i = j := by
  have hantisymm : ∀ a b : α × Slot, a ∈ i.entries → b ∈ j.entries → a.2 < b.2 → b.2 < a.2 →
      a = b := fun _ _ _ _ hab hba => absurd hba (UInt32.lt_asymm hab)
  have he := List.Perm.eq_of_pairwise hantisymm hi.ascending hj.ascending hp
  obtain ⟨entries, numItems⟩ := i
  obtain ⟨entries', numItems'⟩ := j
  dsimp only at he hn
  rw [he, hn]

variable [DecidableEq α] [Item α] {entries other : List (α × Slot)} {numItems : Nat}

theorem exists_ofEntries_iff :
    (∃ i, ofEntries entries numItems = .ok i) ↔ 1 ≤ numItems ∧ Assigned 1 numItems entries := by
  constructor
  · rintro ⟨i, hi⟩
    obtain ⟨hn, ha, -⟩ := ofEntries_eq_ok.mp hi
    exact ⟨hn, ha⟩
  · rintro ⟨hn, ha⟩
    exact ⟨_, ofEntries_eq_ok.mpr ⟨hn, ha, rfl⟩⟩

theorem ofEntries_of_perm {i : Index α} (hp : entries.Perm other)
    (hi : ofEntries entries numItems = .ok i) : ofEntries other numItems = .ok i := by
  obtain ⟨hn, ha, -⟩ := ofEntries_eq_ok.mp hi
  obtain ⟨j, hj⟩ := exists_ofEntries_iff.mpr ⟨hn, ha.perm hp⟩
  have hij : i = j := by
    refine (valid_of_ofEntries hi).eq_of_perm (valid_of_ofEntries hj) ?_ ?_
    · rw [numItems_of_ofEntries hi, numItems_of_ofEntries hj]
    · exact ((perm_of_ofEntries hi).trans hp).trans (perm_of_ofEntries hj).symm
  rw [hij, hj]

/-- What an index says of the entries that it was made of. -/
structure Lists (i : Index α) (entries : List (α × Slot)) : Prop where
  slot?_iff : ∀ item slot, i.slot? item = some slot ↔ (item, slot) ∈ entries
  item?_iff : ∀ item slot, i.item? slot = some item ↔ (item, slot) ∈ entries
  perm : i.entries.Perm entries
  ascending : i.entries.Pairwise fun a b => a.2 < b.2

theorem lists_of_ofEntries {i : Index α} (hi : ofEntries entries numItems = .ok i) :
    i.Lists entries := by
  have hv := valid_of_ofEntries hi
  have hp := perm_of_ofEntries hi
  refine ⟨?_, ?_, hp, hv.ascending⟩
  · intro item slot
    rw [hv.slot?_eq_some, hp.mem_iff]
  · intro item slot
    rw [hv.item?_eq_some, hp.mem_iff]

/-- The indexes that a program comes to hold: made in one of three ways, and then given items one
by one, some of them in vain. -/
inductive Reachable : Index α → Prop
  | made {i : Index α} (h : Made i) : Reachable i
  | inserted {i : Index α} (h : Reachable i) (item : α) : Reachable (i.inserted item)

theorem Reachable.valid {i : Index α} (h : i.Reachable) : i.Valid := by
  induction h with
  | made h => exact h.valid
  | inserted h item ih => exact ih.inserted item

/-- Entries make an index exactly if their slots lie among those in use and neither a slot nor an
item comes twice; else they are malformed. The index lists these entries, by ascending slot, and
it is the same one for every order of theirs. An index is made once more by its own entries. -/
theorem ofEntries_iff_assigned (entries : List (α × Slot)) (numItems : Nat) :
    ((∃ i, ofEntries entries numItems = .ok i) ↔ 1 ≤ numItems ∧ Assigned 1 numItems entries) ∧
    (¬ (1 ≤ numItems ∧ Assigned 1 numItems entries) →
      ∃ flaw, ofEntries entries numItems = .error (.malformed flaw)) ∧
    (∀ i, ofEntries entries numItems = .ok i → i.numItems = numItems ∧ i.Lists entries) ∧
    (∀ other, other.Perm entries → ∀ i,
      ofEntries other numItems = .ok i ↔ ofEntries entries numItems = .ok i) ∧
    ∀ i : Index α, i.Reachable → ofEntries i.entries i.numItems = .ok i := by
  refine ⟨exists_ofEntries_iff, ?_, ?_, ?_, ?_⟩
  · intro hbad
    cases h : ofEntries entries numItems with
    | ok i => exact absurd (exists_ofEntries_iff.mp ⟨i, h⟩) hbad
    | error e =>
      obtain ⟨flaw, rfl⟩ := ofEntries_eq_error h
      exact ⟨flaw, rfl⟩
  · intro i hi
    exact ⟨numItems_of_ofEntries hi, lists_of_ofEntries hi⟩
  · intro other hp i
    exact ⟨ofEntries_of_perm hp, ofEntries_of_perm hp.symm⟩
  · intro i hi
    exact hi.valid.ofEntries_entries

/-- Entries in either order make one index, and with one slot twice they make none. -/
theorem ofEntries_swapped :
    ofEntries [((7 : UInt32), (3 : Slot)), (5, 1)] 5 = .ok ⟨[(5, 1), (7, 3)], 5⟩ ∧
    ofEntries [((5 : UInt32), (1 : Slot)), (7, 3)] 5 = .ok ⟨[(5, 1), (7, 3)], 5⟩ ∧
    ∃ flaw, ofEntries [((7 : UInt32), (3 : Slot)), (5, 3)] 5 = .error (.malformed flaw) := by
  have hmade : ofEntries [((7 : UInt32), (3 : Slot)), (5, 1)] 5 = .ok ⟨[(5, 1), (7, 3)], 5⟩ := by
    cbv
  obtain ⟨-, -, -, hperm, -⟩ := ofEntries_iff_assigned [((7 : UInt32), (3 : Slot)), (5, 1)] 5
  obtain ⟨-, hbad, -⟩ := ofEntries_iff_assigned [((7 : UInt32), (3 : Slot)), (5, 3)] 5
  refine ⟨hmade, (hperm _ (.swap _ _ _) _).mpr hmade, hbad ?_⟩
  rintro ⟨-, ha⟩
  exact absurd ha.slots_nodup (by decide)

end VectorTable.Index
