import VectorTable.Proofs.Table.Coherence

/-! How wide a table is. Tables made in memory have at least one column, because both ways
to make them refuse a width of zero. Nothing refuses a file whose matrix has rows but no
columns, and a table that took in such a file has a width of zero: after a history of
loads, the last file that was taken in decides. -/
namespace VectorTable

variable {α : Type} [Item α]

theorem Config.width_pos_of_validate {config : Config α} (h : config.validate = .ok ()) :
    1 ≤ config.width := by
  unfold Config.validate at h
  split_ifs at h with h0
  exact Nat.one_le_iff_ne_zero.mpr h0

namespace Persisted

/-- The source parses, and its matrix has `cols` columns. -/
def StoresColumns (α : Type) [Item α] (source : Source) (cols : Nat) : Prop :=
  ∃ (header : Header α) (stored : Tensor) (rest : Source) (rows : Nat),
    Holds source header stored rest ∧ stored.dims = [rows, cols]

theorem StoresColumns.unique {source : Source} {cols cols' : Nat}
    (h : StoresColumns α source cols) (h' : StoresColumns α source cols') : cols = cols' := by
  obtain ⟨header, stored, rest, rows, hh, hd⟩ := h
  obtain ⟨header', stored', rest', rows', hh', hd'⟩ := h'
  obtain ⟨-, rfl, -⟩ := hh.unique hh'
  rw [hd] at hd'
  cases hd'
  rfl

/-- The source parses, and there is a column in its matrix. -/
def HasColumns (α : Type) [Item α] (source : Source) : Prop :=
  ∃ cols, 1 ≤ cols ∧ StoresColumns α source cols

theorem StoresColumns.pos_iff {source : Source} {cols : Nat} (h : StoresColumns α source cols) :
    1 ≤ cols ↔ HasColumns α source := by
  constructor
  · intro hc
    exact ⟨cols, hc, h⟩
  · rintro ⟨cols', hc, h'⟩
    rw [h.unique h']
    exact hc

variable [DecidableEq α]

/-- Bringing a file to the current layout adds a row at most, never a column. -/
theorem storesColumns_of_read {source rest : Source} {p : Persisted α}
    (h : (read source).result = .ok (p, rest)) : StoresColumns α source p.width := by
  obtain ⟨header, stored, hh, ha⟩ := read_eq_ok.mp h
  obtain ⟨type, rows, cols, hs⟩ := hh.storable
  refine ⟨header, stored, rest, rows, hh, ?_⟩
  cases hn : Migration.needsRetrofit header.version header.zeroReserved with
  | false =>
    obtain ⟨-, index, -, rfl⟩ := (assemble_kept hs.dims_eq hn).mp ha
    exact hs.dims_eq
  | true =>
    obtain ⟨matrix, index, -, -, rfl⟩ := (assemble_retrofitted hs hn).mp ha
    exact hs.dims_eq

end Persisted

namespace Table

variable [DecidableEq α]

theorem width_pos_of_ofConfig {config : Config α} {noise : Noise} {t : Table α}
    (h : (ofConfig config noise).result = .ok t) : 1 ≤ t.width := by
  obtain ⟨fallthrough, index, matrix, hv, -, -, -, rfl⟩ := ofConfig_eq_ok.mp h
  exact Config.width_pos_of_validate hv

theorem width_pos_of_ofPretrained {matrix : Tensor} {items : List α} {fallthrough : Fallthrough α}
    {t : Table α} (h : (ofPretrained matrix items fallthrough).result = .ok t) : 1 ≤ t.width := by
  obtain ⟨index, rows, cols, aligned, type, -, -, hc, -, -, rfl⟩ := ofPretrained_eq_ok.mp h
  exact hc

theorem width_of_applied {t t' : Table α} {p : Persisted α} (h : t.applied p = .ok t') :
    t'.width = p.width := by
  obtain ⟨index, dataType, -, -, rfl⟩ := applied_eq_ok.mp h
  rfl

theorem storesColumns_of_restore {source rest : Source} {fallthrough : Fallthrough α}
    {t : Table α} (h : (restore source fallthrough).result = .ok (t, rest)) :
    Persisted.StoresColumns α source t.width := by
  obtain ⟨p, dataType, hp, -, ht⟩ := restore_eq_ok.mp h
  rw [width_of_applied ht]
  exact Persisted.storesColumns_of_read hp

/-- The last source of a history of attempts that the table took in. -/
def lastTaken (t : Table α) : List Source → Option Source
  | [] => none
  | source :: rest =>
    ((t.attempt source).lastTaken rest).or ((t.taken? source).map fun _ => source)

/-- After a history of attempts the width is that of the last source taken in, or the old
one. The induction is on the history, with the table left open: each attempt changes it. -/
theorem width_after_attempts (t : Table α) (sources : List Source) :
    match t.lastTaken sources with
    | some source => Persisted.StoresColumns α source (sources.foldl attempt t).width
    | none => (sources.foldl attempt t).width = t.width := by
  induction sources generalizing t with
  | nil => rfl
  | cons source rest ih =>
    have hrest := ih (t.attempt source)
    rw [lastTaken, List.foldl_cons]
    cases hl : (t.attempt source).lastTaken rest with
    | some last =>
      rw [hl] at hrest
      exact hrest
    | none =>
      rw [hl] at hrest
      rw [Option.none_or, hrest]
      rcases t.attempt_cases source with ⟨p, behind, htaken, hp, ha⟩ | ⟨htaken, ha⟩
      · rw [htaken, width_of_applied ha]
        exact Persisted.storesColumns_of_read hp
      · rw [htaken, ha]
        rfl

/-- A table that was made in memory has a column, and so has one that last took in a file
with a column in its matrix, but none that last took in a file without. -/
theorem width_pos_iff :
    (∀ (config : Config α) noise t, (ofConfig config noise).result = .ok t → 1 ≤ t.width) ∧
    (∀ matrix (items : List α) fallthrough t,
      (ofPretrained matrix items fallthrough).result = .ok t → 1 ≤ t.width) ∧
    (∀ source rest (fallthrough : Fallthrough α) t,
      (restore source fallthrough).result = .ok (t, rest) →
        (1 ≤ t.width ↔ Persisted.HasColumns α source)) ∧
    ∀ (t : Table α) sources, 1 ≤ (sources.foldl attempt t).width ↔
      match t.lastTaken sources with
      | some source => Persisted.HasColumns α source
      | none => 1 ≤ t.width := by
  refine ⟨fun _ _ _ => width_pos_of_ofConfig, fun _ _ _ _ => width_pos_of_ofPretrained, ?_, ?_⟩
  · intro source rest fallthrough t h
    exact (storesColumns_of_restore h).pos_iff
  · intro t sources
    have h := t.width_after_attempts sources
    cases hl : t.lastTaken sources with
    | some source =>
      rw [hl] at h
      exact Persisted.StoresColumns.pos_iff h
    | none =>
      rw [hl] at h
      rw [h]

/-- A file of the first version with a matrix of one row and no columns. -/
def columnless : Source where
  bytes := [1, 0, 0x50, 1, 0, 1, 109, 0, 5, 117, 105, 110, 116, 56,
    0, 0, 0, 2, 0, 0, 0, 0, 0, 0, 0, 1, 0, 0, 0, 0, 0, 0, 0, 0, 0, 0, 0, 0, 0, 0, 0, 0, 0, 0, 0, 0]
  ending := .endOfData

/-- There are tables without a column. -/
theorem width_columnless : ∃ t : Table UInt32,
    (restore columnless .none).result = .ok (t, ⟨[], .endOfData⟩) ∧ t.numItems = 1 ∧
      t.width = 0 :=
  ⟨⟨Index.empty, ⟨.storable .uint8, [1, 0], [], true, rfl⟩, 0, .uint8, true, .none, defaultShapes⟩,
    by cbv, rfl, rfl⟩

end Table
end VectorTable
