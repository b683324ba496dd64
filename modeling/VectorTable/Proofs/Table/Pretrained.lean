import VectorTable.Proofs.Numbering
import VectorTable.Proofs.Table.Coherence

/-! Tables around trained matrices. A matrix may have a row for every slot or a row for
every item; which of the two it is, is told from the number of its rows alone. Repeated
items count once there, so a matrix whose rows were laid out for the list as it stands is
taken for the other kind, and its rows move away from their items. -/
namespace VectorTable

theorem Index.slot?_numbering_of_nodup {α : Type} [DecidableEq α] {l : List α} (h : l.Nodup)
    {k : Nat} {item : α} (hk : l[k]? = some item) :
    (numbering l).slot? item = some (UInt32.ofNat (k + 1)) := by
  obtain ⟨hlt, rfl⟩ := List.getElem?_eq_some_iff.mp hk
  have hfirst : l.idxOf? l[k] = some k := by
    rw [List.idxOf?_eq_some_iff]
    refine ⟨hlt, rfl, ?_⟩
    intro j hj heq
    exact absurd ((h.getElem_inj_iff).mp heq) (Nat.ne_of_lt hj)
  rw [slot?_numbering, hfirst, Option.map_some]

namespace Table

section Aligns

variable {matrix aligned : Tensor} {rows cols items : Nat} {type : DataType}

theorem exists_aligns (hm : matrix.Storable type rows cols) :
    (∃ aligned, Aligns matrix rows items aligned) ↔
      rows = items ∧ Migration.grownBytes type rows cols < blockLimit ∨ rows = items + 1 := by
  constructor
  · rintro ⟨aligned, ⟨h, -⟩ | ⟨h, ha⟩⟩
    · exact .inr h
    · refine .inl ⟨h, ?_⟩
      by_contra houtgrown
      rw [Migration.prependZeroRow_outgrown hm.dims_eq hm.elementType_eq
        (Nat.not_lt.mp houtgrown)] at ha
      cases ha
  · rintro (⟨h, hfits⟩ | h)
    · obtain ⟨aligned, ha, -⟩ :=
        Migration.prependZeroRow_of_fits hm.dims_eq hm.elementType_eq hfits
      exact ⟨aligned, .inr ⟨h, ha⟩⟩
    · exact ⟨matrix, .inl ⟨h, rfl⟩⟩

theorem Aligns.elementType_eq (h : Aligns matrix rows items aligned)
    (hm : matrix.Storable type rows cols) : aligned.elementType = .storable type := by
  rcases h with ⟨-, rfl⟩ | ⟨-, h⟩
  · exact hm.elementType_eq
  · rw [(Migration.prepended_of_dims hm.dims_eq h).elementType_eq, hm.elementType_eq]

/-- A row for every item: each moves one further down, behind a row of zeros. -/
theorem Aligns.row_of_items (h : Aligns matrix rows items aligned)
    (hm : matrix.Storable type rows cols) (hr : rows = items) :
    aligned.row 0 = List.replicate (cols * type.width) 0 ∧
      ∀ k, aligned.row (k + 1) = matrix.row k := by
  rcases h with ⟨h, -⟩ | ⟨-, h⟩
  · omega
  · have hp := Migration.prepended_of_dims hm.dims_eq h
    refine ⟨?_, hp.row_succ hm.dims_eq⟩
    rw [hp.row_zero, hm.elementType_eq]
    rfl

theorem Aligns.eq_of_slots (h : Aligns matrix rows items aligned) (hr : rows = items + 1) :
    aligned = matrix := by
  rcases h with ⟨-, h⟩ | ⟨h, -⟩
  · exact h
  · omega

end Aligns

variable {α : Type} [DecidableEq α] [Item α] {matrix : Tensor} {type : DataType} {rows cols : Nat}

theorem ofPretrained_of_storable (hm : matrix.Storable type rows cols) (hc : 1 ≤ cols)
    {items : List α} {fallthrough : Fallthrough α} {t : Table α} :
    (ofPretrained matrix items fallthrough).result = .ok t ↔
      items.eraseDups.length ≤ maxSlot.toNat ∧
        ∃ aligned, Aligns matrix rows items.eraseDups.length aligned ∧
          t = ⟨.numbering items.eraseDups, aligned, cols, type, true, fallthrough,
            defaultShapes⟩ := by
  rw [ofPretrained_eq_ok]
  constructor
  · rintro ⟨index, rows', cols', aligned, type', hi, hd, -, ha, ht, rfl⟩
    rw [hm.dims_eq] at hd
    cases hd
    rw [ha.elementType_eq hm] at ht
    cases ht
    obtain ⟨hle, rfl⟩ := Index.ofItems_eq_ok.mp hi
    rw [Index.size_numbering] at ha
    exact ⟨hle, aligned, ha, rfl⟩
  · rintro ⟨hle, aligned, ha, rfl⟩
    refine ⟨_, rows, cols, aligned, type, Index.ofItems_eq_ok.mpr ⟨hle, rfl⟩, hm.dims_eq, hc, ?_,
      ha.elementType_eq hm, rfl⟩
    rwa [Index.size_numbering]

theorem embedOne_of_numbering {items : List α} (hnodup : items.Nodup)
    (hle : items.length ≤ maxSlot.toNat) {t : Table α} (ht : t.index = .numbering items)
    (k : Nat) (item : α) (hk : items[k]? = some item) :
    ∃ slot, t.embedOne item = .ok slot ∧ slot.toNat = k + 1 := by
  obtain ⟨hlt, -⟩ := List.getElem?_eq_some_iff.mp hk
  have hmax : maxSlot.toNat = 2147483647 := rfl
  refine ⟨UInt32.ofNat (k + 1), ?_, UInt32.toNat_ofNat_of_lt' ?_⟩
  · rw [embedOne, ht, Index.slot?_numbering_of_nodup hnodup hk]
  · show k + 1 < 2 ^ 32
    omega

/-- Repetitions in the list of items make no difference. -/
theorem ofPretrained_eraseDups (matrix : Tensor) (items : List α) (fallthrough : Fallthrough α) :
    (ofPretrained matrix items fallthrough).result =
      (ofPretrained matrix items.eraseDups fallthrough).result := by
  unfold ofPretrained
  rw [Run.result_bind, Run.result_bind, Index.ofItems_eq, Index.ofItems_eq,
    eraseDups_of_nodup (nodup_eraseDups items)]

/-- A matrix with a row for every item that outgrows memory with the row in front of them. -/
theorem ofPretrained_outgrown (hm : matrix.Storable type rows cols) (hc : 1 ≤ cols)
    {items : List α} (hnodup : items.Nodup) (hle : items.length ≤ maxSlot.toNat)
    (hr : rows = items.length) (hb : blockLimit ≤ Migration.grownBytes type rows cols)
    (fallthrough : Fallthrough α) :
    (ofPretrained matrix items fallthrough).result = .error .outOfMemory := by
  have hi : (Index.ofItems items).result = .ok (.numbering items) := by
    have h := Index.ofItems_eq_ok.mpr ⟨(eraseDups_of_nodup hnodup).symm ▸ hle, rfl⟩
    rwa [eraseDups_of_nodup hnodup] at h
  have halign : (alignRows (.numbering items) matrix rows).result = .error .outOfMemory := by
    have hnum : ¬ rows = (Index.numbering items).numItems := by
      show ¬ rows = items.length + 1
      omega
    rw [alignRows, if_neg hnum, Index.size_numbering, if_pos hr, Run.result_bind,
      Run.result_tell, Migration.prependZeroRow_outgrown hm.dims_eq hm.elementType_eq hb]
    rfl
  unfold ofPretrained
  refine Run.bind_eq_error.mpr (.inr ⟨_, hi, ?_⟩)
  refine Run.bind_eq_error.mpr (.inr ⟨_, Tensor.rowsCols_eq_ok.mpr hm.dims_eq, ?_⟩)
  dsimp only
  rw [if_neg (Nat.one_le_iff_ne_zero.mp hc)]
  exact Run.bind_eq_error.mpr (.inl halign)

/-- A trained matrix makes a table exactly if it has as many rows as there are items, and there is
a block of memory for them and the row in front of them, or one row more; then every item has the
row that was trained for it. Repeated items are taken for one item each, and the rows are counted
against what is left of the list. -/
theorem ofPretrained_rows (hm : matrix.Storable type rows cols) (hc : 1 ≤ cols) (items : List α)
    (fallthrough : Fallthrough α) :
    (ofPretrained matrix items fallthrough).result =
      (ofPretrained matrix items.eraseDups fallthrough).result ∧
    (items.Nodup →
      ((∃ t, (ofPretrained matrix items fallthrough).result = .ok t) ↔
        items.length ≤ maxSlot.toNat ∧
          (rows = items.length ∧ (rows + 1) * (cols * type.width) < blockLimit ∨
            rows = items.length + 1)) ∧
      (items.length ≤ maxSlot.toNat → rows = items.length →
        blockLimit ≤ (rows + 1) * (cols * type.width) →
          (ofPretrained matrix items fallthrough).result = .error .outOfMemory) ∧
      ∀ t, (ofPretrained matrix items fallthrough).result = .ok t →
        (rows = items.length → t.matrix.row 0 = List.replicate (cols * type.width) 0 ∧
          ∀ k item, items[k]? = some item →
            ∃ slot, t.embedOne item = .ok slot ∧ t.matrix.row slot.toNat = matrix.row k) ∧
        (rows = items.length + 1 → t.matrix.row 0 = matrix.row 0 ∧
          ∀ k item, items[k]? = some item →
            ∃ slot, t.embedOne item = .ok slot ∧
              t.matrix.row slot.toNat = matrix.row (k + 1))) := by
  refine ⟨ofPretrained_eraseDups matrix items fallthrough, ?_⟩
  intro hnodup
  have hok (t : Table α) : (ofPretrained matrix items fallthrough).result = .ok t ↔ _ :=
    ofPretrained_of_storable hm hc
  rw [eraseDups_of_nodup hnodup] at hok
  refine ⟨?_, ?_, ?_⟩
  · show _ ↔ _ ∧ (rows = items.length ∧ Migration.grownBytes type rows cols < blockLimit ∨ _)
    rw [← exists_aligns hm]
    constructor
    · rintro ⟨t, h⟩
      obtain ⟨hle, aligned, ha, -⟩ := (hok t).mp h
      exact ⟨hle, aligned, ha⟩
    · rintro ⟨hle, aligned, ha⟩
      exact ⟨_, (hok _).mpr ⟨hle, aligned, ha, rfl⟩⟩
  · intro hle hr hb
    exact ofPretrained_outgrown hm hc hnodup hle hr hb fallthrough
  · intro t h
    obtain ⟨hle, aligned, ha, ht⟩ := (hok t).mp h
    have hindex : t.index = .numbering items := by rw [ht]
    have hmatrix : t.matrix = aligned := by rw [ht]
    have hembed := embedOne_of_numbering hnodup hle hindex
    rw [hmatrix]
    constructor
    · intro hr
      obtain ⟨hzero, hrow⟩ := ha.row_of_items hm hr
      refine ⟨hzero, ?_⟩
      intro k item hk
      obtain ⟨slot, hs, hslot⟩ := hembed k item hk
      exact ⟨slot, hs, by rw [hslot, hrow]⟩
    · intro hr
      rw [ha.eq_of_slots hr]
      refine ⟨rfl, ?_⟩
      intro k item hk
      obtain ⟨slot, hs, hslot⟩ := hembed k item hk
      exact ⟨slot, hs, by rw [hslot]⟩

/-- A trained column of three rows. -/
def trained : Tensor := ⟨.storable .uint8, [3, 1], [10, 11, 12], true, rfl⟩

/-- Three items, and two. -/
theorem rows_of_trained :
    (∃ t : Table UInt32, (ofPretrained trained [5, 9, 7] .none).result = .ok t ∧
      t.matrix.row 0 = [0] ∧ ∃ slot, t.embedOne 7 = .ok slot ∧ t.matrix.row slot.toNat = [12]) ∧
    ∃ t : Table UInt32, (ofPretrained trained [5, 9] .defaultRow).result = .ok t ∧
      t.matrix.row 0 = [10] ∧ ∃ slot, t.embedOne 9 = .ok slot ∧ t.matrix.row slot.toNat = [12] := by
  have hm : trained.Storable .uint8 3 1 := ⟨rfl, rfl⟩
  constructor
  · obtain ⟨hok, hrows⟩ := (ofPretrained_rows hm (by decide) [(5 : UInt32), 9, 7] .none).2 (by decide)
    obtain ⟨t, ht⟩ := hok.mpr ⟨by decide, .inl ⟨rfl, by decide⟩⟩
    obtain ⟨hzero, hrow⟩ := (hrows.2 t ht).1 rfl
    exact ⟨t, ht, hzero, hrow 2 7 rfl⟩
  · obtain ⟨hok, hrows⟩ := (ofPretrained_rows hm (by decide) [(5 : UInt32), 9] .defaultRow).2
      (by decide)
    obtain ⟨t, ht⟩ := hok.mpr ⟨by decide, .inr rfl⟩
    obtain ⟨hzero, hrow⟩ := (hrows.2 t ht).2 rfl
    exact ⟨t, ht, hzero, hrow 1 9 rfl⟩

/-- With a repeated item, a matrix with a row for each place in the list is taken for one
with a row for each slot: item 5 gets the row of item 9. And a matrix with one row more is
refused. -/
theorem rows_of_repeated :
    (∃ t : Table UInt32, (ofPretrained trained [5, 9, 5] .none).result = .ok t ∧
      t.embedOne 5 = .ok 1 ∧ t.matrix.row 1 = trained.row 1 ∧ trained.row 1 ≠ trained.row 0 ∧
      t.matrix.row 0 ≠ [0]) ∧
    ∀ t : Table UInt32, (ofPretrained ⟨.storable .uint8, [4, 1], [9, 10, 11, 12], true, rfl⟩
      [5, 9, 5] .none).result ≠ .ok t := by
  constructor
  · exact ⟨⟨⟨[(5, 1), (9, 2)], 3⟩, trained, 1, .uint8, true, .none, defaultShapes⟩, rfl, rfl, rfl,
      by decide, by decide⟩
  · intro t h
    cases h

end Table
end VectorTable
