import VectorTable.Proofs.Filling
import VectorTable.Proofs.Numbering
import VectorTable.Proofs.Table.Width

/-! Tables made from options. The items are numbered by their first occurrence, whatever
repetitions there are, and the matrix has a row for each of them behind the reserved one.
Options that pass their check make a table, with one exception: the check looks at the ends of
a range and not at the distance between them, which the filling asks for. -/
namespace VectorTable

variable {α : Type}

namespace Index

/-- The items of a list are there once each, in the order of their first occurrence and in the
slots from 1 on. -/
structure Numbers [DecidableEq α] (i : Index α) (items : List α) : Prop where
  items_eq : i.entries.map Prod.fst = items.eraseDups
  slots_eq : i.entries.map (fun e => e.2.toNat) = List.range' 1 items.eraseDups.length
  numItems_eq : i.numItems = items.eraseDups.length + 1

variable [DecidableEq α]

theorem numbers_numbering {items : List α} (h : items.eraseDups.length ≤ maxSlot.toNat) :
    (numbering items.eraseDups).Numbers items :=
  ⟨items_numbering _, slots_numbering h, rfl⟩

variable [Item α]

theorem ofItems_of_lt {items : List α} (h : items.eraseDups.length < 2 ^ 31) :
    (ofItems items).result = .ok (numbering items.eraseDups) ∧
      (numbering items.eraseDups).Numbers items := by
  have hle : items.eraseDups.length ≤ maxSlot.toNat := Nat.le_of_lt_succ h
  exact ⟨ofItems_eq_ok.mpr ⟨hle, rfl⟩, numbers_numbering hle⟩

end Index

namespace Config

variable [Item α] {config : Config α}

theorem validate_eq_ok : config.validate = .ok () ↔
    1 ≤ config.width ∧ checkFilling config.filling = .ok () ∧
      ∃ fallthrough, config.fallthrough = .ok fallthrough := by
  unfold validate
  split_ifs with h0
  · simp [h0]
  · rw [except_seq_eq_ok, except_bind_eq_ok]
    cases checkFilling config.filling with
    | error misfit => simp [Except.mapError]
    | ok => simp [Except.mapError, Nat.one_le_iff_ne_zero, h0]

theorem fallthrough_eq_error {e : Error} (h : config.fallthrough = .error e) :
    ∃ misfit, e = .configuration misfit := by
  unfold Config.fallthrough at h
  by_cases hmany : 1 < config.fallthroughSources.length
  · rw [if_pos hmany] at h
    cases h
    exact ⟨_, rfl⟩
  · rw [if_neg hmany] at h
    split at h <;> cases h

/-- What a check of options finds is that they contradict each other. -/
theorem validate_eq_error {e : Error} (h : config.validate = .error e) :
    ∃ misfit, e = .configuration misfit := by
  unfold validate at h
  split_ifs at h
  · cases h
    exact ⟨_, rfl⟩
  · rcases except_bind_eq_error.mp h with hc | ⟨-, -, hf⟩
    · obtain ⟨misfit, -, rfl⟩ := except_mapError_eq_error.mp hc
      exact ⟨misfit, rfl⟩
    · rcases except_bind_eq_error.mp hf with hf | ⟨policy, -, hf⟩
      · exact fallthrough_eq_error hf
      · cases hf

end Config

namespace Table

variable [DecidableEq α] [Item α]

theorem ofConfig_of_matrix {config : Config α} {noise : Noise} {matrix : Tensor}
    (h : config.items.eraseDups.length < 2 ^ 31) (hv : config.validate = .ok ())
    (hm : config.filling.matrix noise config.dataType (config.items.eraseDups.length + 1)
      config.width = .ok matrix) :
    ∃ fallthrough, (ofConfig config noise).result =
      .ok ⟨.numbering config.items.eraseDups, matrix, config.width, config.dataType,
        config.sparseGrad, fallthrough, defaultShapes⟩ := by
  obtain ⟨hi, -⟩ := Index.ofItems_of_lt h
  obtain ⟨-, -, fallthrough, hf⟩ := Config.validate_eq_ok.mp hv
  exact ⟨fallthrough, ofConfig_eq_ok.mpr ⟨fallthrough, _, matrix, hv, hf, hi, hm, rfl⟩⟩

/-- Items are numbered as if each of them were put in on its own: the distinct ones count from 1
in the order of their first occurrence, and each of the others leaves a warning in its turn. A
table that is made from options has such an index, with a matrix to match. -/
theorem numbered_by_first_occurrence (α : Type) [DecidableEq α] [Item α] :
    (∀ items : List α, items.eraseDups.length < 2 ^ 31 → ∃ i : Index α,
      (Index.ofItems items).result = .ok i ∧ Index.empty.insertAll items = .ok i ∧
        i.Numbers items ∧
        (Index.ofItems items).trail = (repeated items).map (fun e => Index.duplicateSkipped e.1) ∧
        (repeated items).length = items.length - items.eraseDups.length) ∧
    ∀ (config : Config α) noise matrix, config.items.eraseDups.length < 2 ^ 31 →
      config.validate = .ok () →
      config.filling.matrix noise config.dataType (config.items.eraseDups.length + 1)
        config.width = .ok matrix → ∃ t,
      (ofConfig config noise).result = .ok t ∧ t.index.Numbers config.items ∧
        t.matrix = matrix ∧ t.matrix.dims = [config.items.eraseDups.length + 1, t.width] ∧
        t.width = config.width ∧ t.dataType = config.dataType ∧
        t.sparseGrad = config.sparseGrad ∧ t.inputShapes = [⟨[-1], ""⟩] := by
  constructor
  · intro items h
    obtain ⟨hi, hn⟩ := Index.ofItems_of_lt h
    refine ⟨_, hi, ?_, hn, ?_, length_repeated items⟩
    · rw [← Index.result_addAll]
      exact hi
    · exact Index.trail_addAll_numbering [] items (Nat.le_of_lt_succ h)
  · intro config noise matrix h hv hm
    obtain ⟨-, hn⟩ := Index.ofItems_of_lt h
    obtain ⟨fallthrough, ht⟩ := ofConfig_of_matrix h hv hm
    exact ⟨_, ht, hn, rfl, (Filling.matrix_eq_ok hm).2, rfl, rfl, rfl, rfl⟩

/-- Five items, two of them named before. -/
theorem numbered_fiveWithTwoRepeated :
    (Index.ofItems [(5 : UInt32), 9, 5, 7, 9]).trail =
      [Index.duplicateSkipped (5 : UInt32), Index.duplicateSkipped (9 : UInt32)] ∧
    Index.empty.insertAll [(5 : UInt32), 9, 5, 7, 9] = .ok ⟨[(5, 1), (9, 2), (7, 3)], 4⟩ ∧
    ∃ t : Table UInt32, (ofConfig pairConfig ⟨fun _ => 0⟩).result = .ok t ∧
      t.matrix.dims = [3, 2] := by
  obtain ⟨i, hi, hall, -, htrail, -⟩ :=
    (numbered_by_first_occurrence UInt32).1 [(5 : UInt32), 9, 5, 7, 9] (by decide)
  have hindex : (Index.ofItems [(5 : UInt32), 9, 5, 7, 9]).result =
    .ok ⟨[(5, 1), (9, 2), (7, 3)], 4⟩ := rfl
  rw [hindex] at hi
  cases hi
  obtain ⟨t, ht, -, -, hd, hw, -⟩ := (numbered_by_first_occurrence UInt32).2 pairConfig
    ⟨fun _ => 0⟩ _ (by decide) rfl rfl
  rw [hw] at hd
  exact ⟨htrail, hall, t, ht, hd⟩

theorem ofConfig_eq_error_of_validate {config : Config α} {noise : Noise} {e : Error}
    (h : config.validate = .error e) : (ofConfig config noise).result = .error e :=
  Run.bind_eq_error.mpr (.inl h)

/-- Where the options pass their check, the filling has the last word. -/
theorem ofConfig_eq_error_of_matrix {config : Config α} {noise : Noise} {index : Index α}
    {e : Error} (hv : config.validate = .ok ()) (hi : (Index.ofItems config.items).result = .ok index)
    (hm : config.filling.matrix noise config.dataType index.numItems config.width = .error e) :
    (ofConfig config noise).result = .error e := by
  obtain ⟨-, -, fallthrough, hf⟩ := Config.validate_eq_ok.mp hv
  refine Run.bind_eq_error.mpr (.inr ⟨(), hv, Run.bind_eq_error.mpr (.inr ⟨fallthrough, hf, ?_⟩)⟩)
  exact Run.bind_eq_error.mpr (.inr ⟨index, hi, Run.bind_eq_error.mpr (.inl hm)⟩)

/-- Options make a table exactly if they pass their check and the range of the filling, if it
has one, is no wider than single precision can tell. What the check finds is reported as a
matter of the options; a range that is too wide is not found by the check. The cells must have
room in memory, in single precision as well as in their own type unless they are zeros. -/
theorem ofConfig_of_validate (config : Config α) (noise : Noise)
    (hd : config.items.eraseDups.length < 2 ^ 31)
    (hbytes : (config.items.eraseDups.length + 1) * config.width *
      config.filling.cellBytes config.dataType < blockLimit) :
    (config.validate = .ok () → config.filling.Fits →
      ∃ t, (ofConfig config noise).result = .ok t) ∧
    (config.validate = .ok () → ¬ config.filling.Fits →
      (ofConfig config noise).result = .error (.tensor .unboundedSpread)) ∧
    ∀ e, config.validate = .error e →
      (∃ misfit, e = .configuration misfit) ∧ (ofConfig config noise).result = .error e := by
  obtain ⟨hi, hn⟩ := Index.ofItems_of_lt hd
  refine ⟨?_, ?_, ?_⟩
  · intro hv hfits
    obtain ⟨hw, hc, -⟩ := Config.validate_eq_ok.mp hv
    have hsides : config.items.eraseDups.length + 1 + config.width ≤ 2 ^ 64 := by
      have hlt : config.width < 2 ^ 63 := by
        refine Nat.lt_of_le_of_lt ?_ hbytes
        rw [Nat.mul_comm (_ + 1), Nat.mul_assoc]
        exact Nat.le_mul_of_pos_right _
          (Nat.mul_pos (Nat.succ_pos _) (config.filling.cellBytes_pos config.dataType))
      omega
    obtain ⟨matrix, hm⟩ := Filling.exists_matrix_of_checked hc noise config.dataType hbytes hfits
      (by omega) hsides
    obtain ⟨fallthrough, ht⟩ := ofConfig_of_matrix hd hv hm
    exact ⟨_, ht⟩
  · intro hv hfits
    obtain ⟨-, hc, -⟩ := Config.validate_eq_ok.mp hv
    exact ofConfig_eq_error_of_matrix hv hi
      (Filling.matrix_eq_error_of_checked hc noise _ hbytes hfits)
  · intro e he
    exact ⟨Config.validate_eq_error he, ofConfig_eq_error_of_validate he⟩

/-- Two items in a range from 0 to 1. -/
def unitRange : Config UInt32 :=
  { items := [5, 9, 5], width := 2, filling := .uniform ⟨0⟩ ⟨0x3F800000⟩ }

theorem ofConfig_unitRange : unitRange.validate = .ok () ∧ unitRange.filling.Fits ∧
    ∃ t, (ofConfig unitRange ⟨fun k => UInt32.ofNat k⟩).result = .ok t := by
  have hv : unitRange.validate = .ok () := rfl
  have hfits : unitRange.filling.Fits := ⟨0, 2 ^ 149, rfl, rfl, by decide⟩
  exact ⟨hv, hfits, (ofConfig_of_validate unitRange _ (by decide) (by decide)).1 hv hfits⟩

/-- A range whose ends, -3e38 and 3e38, are finite and in order. -/
def wideRange : Config UInt32 := { width := 1, filling := .uniform ⟨0xFF61B1E6⟩ ⟨0x7F61B1E6⟩ }

/-- Options that pass their check and make no table. -/
theorem ofConfig_wideRange : wideRange.validate = .ok () ∧
    (ofConfig wideRange ⟨fun _ => 0⟩).result = .error (.tensor .unboundedSpread) :=
  ⟨rfl, rfl⟩

end Table
end VectorTable
