import VectorTable.Proofs.Migration
import VectorTable.Proofs.Table.Coherence

/-! What a table holds after a history of loads. Each part of a table follows the
last file that had a say in it, and parts follow different files: old versions say
nothing of items, of gradients or of shapes. Loads that failed leave no trace. -/
namespace VectorTable.Table

variable {α : Type}

/-- The last file of a version that is not older than `version`. -/
def lastSince (version : UInt8) (files : List (Persisted α)) : Option (Persisted α) :=
  (files.filter fun p => version ≤ p.version).getLast?

/-- A value is what the last file says, or the old one if there is no file. -/
def Follows {β : Type} (last : Option (Persisted α)) (said : Persisted α → Option β)
    (old new : β) : Prop :=
  match last with
  | some p => said p = some new
  | none => new = old

/-- The data type that a file implies: the one it names, or else that of its cells. -/
def impliedType (p : Persisted α) : Option DataType :=
  if 3 ≤ p.version then p.dataType else p.matrix.elementType.dataType?

namespace Follows

variable {β : Type} {files : List (Persisted α)} {p : Persisted α}
  {said : Persisted α → Option β} {old new new' : β}

theorem unique {last : Option (Persisted α)} (h : Follows last said old new)
    (h' : Follows last said old new') : new = new' := by
  cases last with
  | none => exact h.trans h'.symm
  | some p => exact Option.some.inj (h.symm.trans h')

theorem append_iff : Follows (files ++ [p]).getLast? said old new ↔ said p = some new := by
  rw [List.getLast?_concat]
  rfl

/-- A file says something of a part exactly if it is new enough; otherwise the part
stays as it is. -/
theorem append_since {version : UInt8} (h : Follows (lastSince version files) said old new)
    (hp : (said p).isSome = decide (version ≤ p.version)) :
    Follows (lastSince version (files ++ [p])) said old ((said p).getD new) := by
  by_cases hv : version ≤ p.version
  · have hl : lastSince version (files ++ [p]) = some p := by simp [lastSince, hv]
    rw [decide_eq_true hv] at hp
    obtain ⟨b, hb⟩ := Option.isSome_iff_exists.mp hp
    rw [hl, hb]
    exact hb
  · have hl : lastSince version (files ++ [p]) = lastSince version files := by simp [lastSince, hv]
    rw [decide_eq_false hv, Option.isSome_eq_false_iff, Option.isNone_iff_eq_none] at hp
    rw [hl, hp]
    exact h

end Follows

variable [Item α]

/-- The table `t` is what `start` has become by taking in `files`. -/
structure Retains (start : Table α) (files : List (Persisted α)) (t : Table α) : Prop where
  entries : Follows (lastSince 3 files) (fun p => p.index.map Index.entries) start.entries t.entries
  sparseGrad : Follows (lastSince 3 files) Persisted.sparseGrad start.sparseGrad t.sparseGrad
  inputShapes : Follows (lastSince 2 files) Persisted.inputShapes start.inputShapes t.inputShapes
  matrix : Follows files.getLast? (fun p => some p.matrix) start.matrix t.matrix
  numItems : Follows files.getLast? (fun p => some p.numItems) start.numItems t.numItems
  width : Follows files.getLast? (fun p => some p.width) start.width t.width
  dataType : Follows files.getLast? impliedType start.dataType t.dataType
  fallthrough : t.fallthrough = start.fallthrough

theorem retains_start (start : Table α) : Retains start [] start :=
  ⟨rfl, rfl, rfl, rfl, rfl, rfl, rfl, rfl⟩

/-- The start and the files that were taken in leave no choice. -/
theorem Retains.unique {start t t' : Table α} {files : List (Persisted α)}
    (h : Retains start files t) (h' : Retains start files t') : t = t' := by
  obtain ⟨⟨entries, numItems⟩, matrix, width, dataType, sparseGrad, fallthrough, shapes⟩ := t
  obtain
    ⟨⟨entries', numItems'⟩, matrix', width', dataType', sparseGrad', fallthrough', shapes'⟩ := t'
  obtain rfl : entries = entries' := h.entries.unique h'.entries
  obtain rfl : numItems = numItems' := h.numItems.unique h'.numItems
  obtain rfl : matrix = matrix' := h.matrix.unique h'.matrix
  obtain rfl : width = width' := h.width.unique h'.width
  obtain rfl : dataType = dataType' := h.dataType.unique h'.dataType
  obtain rfl : sparseGrad = sparseGrad' := h.sparseGrad.unique h'.sparseGrad
  obtain rfl : fallthrough = fallthrough' := h.fallthrough.trans h'.fallthrough.symm
  obtain rfl : shapes = shapes' := h.inputShapes.unique h'.inputShapes
  rfl

omit [Item α] in
theorem impliedType_of_dataTypeAfter {p : Persisted α} {dataType : DataType} (hv : p.Versioned)
    (h : dataTypeAfter p = .ok dataType) : impliedType p = some dataType := by
  have hp := hv.dataType
  unfold dataTypeAfter at h
  unfold impliedType
  cases hd : p.dataType with
  | some d =>
    rw [hd] at h hp
    cases h
    rw [if_pos (of_decide_eq_true hp.symm)]
  | none =>
    rw [hd] at h hp
    rw [if_neg (of_decide_eq_false hp.symm)]
    exact ElementType.dataType?_eq_some.mpr (matrixDataType_eq_ok.mp h)

variable [DecidableEq α]

theorem entries_of_indexAfter {t : Table α} {p : Persisted α} {index : Index α}
    (hs : t.entries.Pairwise fun a b => a.2 ≤ b.2) (h : t.indexAfter p = .ok index) :
    index.entries = (p.index.map Index.entries).getD t.entries := by
  unfold indexAfter at h
  cases hi : p.index with
  | some i =>
    rw [hi] at h
    cases h
    rfl
  | none =>
    rw [hi] at h
    rw [Index.entries_of_ofEntries h hs]
    rfl

/-- One more file. -/
theorem Retains.apply {start t t' : Table α} {files : List (Persisted α)} {p : Persisted α}
    (h : Retains start files t) (ht : t.Coherent) (hp : p.Sound) (hv : p.Versioned)
    (ha : t.applied p = .ok t') : Retains start (files ++ [p]) t' := by
  obtain ⟨index, dataType, hi, hd, rfl⟩ := applied_eq_ok.mp ha
  obtain ⟨-, -, hn⟩ := indexAfter_sound hp ht.slots hi
  have he : index.entries = (p.index.map Index.entries).getD t.entries :=
    entries_of_indexAfter ht.index.sorted hi
  have hsome : (p.index.map Index.entries).isSome = decide (3 ≤ p.version) := by
    rw [Option.isSome_map, hv.index]
  refine ⟨?_, h.sparseGrad.append_since hv.sparseGrad, h.inputShapes.append_since hv.inputShapes,
    Follows.append_iff.mpr rfl, Follows.append_iff.mpr ?_, Follows.append_iff.mpr rfl,
    Follows.append_iff.mpr (impliedType_of_dataTypeAfter hv hd), h.fallthrough⟩
  · show Follows _ _ _ index.entries
    rw [he]
    exact h.entries.append_since hsome
  · exact congrArg some hn.symm

/-- The files that are taken in on the way through a history of attempts. -/
def taken (t : Table α) : List Source → List (Persisted α)
  | [] => []
  | source :: rest => (t.taken? source).toList ++ taken (t.attempt source) rest

/-- One more attempt, which adds a file or changes nothing. -/
theorem Retains.attempt {start t : Table α} {files : List (Persisted α)}
    (h : Retains start files t) (ht : t.Coherent) (source : Source) :
    Retains start (files ++ (t.taken? source).toList) (t.attempt source) := by
  rcases t.attempt_cases source with ⟨p, rest, hp, hr, ha⟩ | ⟨hn, ha⟩
  · rw [hp]
    exact h.apply ht (Persisted.sound_of_read hr) (Persisted.versioned_of_read hr) ha
  · rw [hn, ha, Option.toList_none, List.append_nil]
    exact h

theorem Retains.attempts {start t : Table α} {files : List (Persisted α)}
    (h : Retains start files t) (ht : t.Coherent) (sources : List Source) :
    Retains start (files ++ t.taken sources) (sources.foldl Table.attempt t) := by
  induction sources generalizing t files with
  | nil =>
    rw [taken, List.append_nil]
    exact h
  | cons source rest ih =>
    rw [taken, ← List.append_assoc]
    exact ih (h.attempt ht source) (ht.attempt source)

/-- A file of a recent version has a say in everything but the policy. -/
theorem apply_of_recent {p : Persisted α} (hv : p.Versioned) (h3 : 3 ≤ p.version) :
    ∃ index dataType sparseGrad shapes, ∀ t : Table α,
      t.applied p = .ok ⟨index, p.matrix, p.width, dataType, sparseGrad, t.fallthrough, shapes⟩ := by
  have h2 : 2 ≤ p.version := UInt8.le_trans (by decide) h3
  obtain ⟨index, hi⟩ := Option.isSome_iff_exists.mp (hv.index.trans (decide_eq_true h3))
  obtain ⟨dataType, hd⟩ := Option.isSome_iff_exists.mp (hv.dataType.trans (decide_eq_true h3))
  obtain ⟨sparseGrad, hg⟩ := Option.isSome_iff_exists.mp (hv.sparseGrad.trans (decide_eq_true h3))
  obtain ⟨shapes, hs⟩ := Option.isSome_iff_exists.mp (hv.inputShapes.trans (decide_eq_true h2))
  refine ⟨index, dataType, sparseGrad, shapes, ?_⟩
  intro t
  refine applied_eq_ok.mpr ⟨index, dataType, ?_, ?_, ?_⟩
  · rw [indexAfter, hi]
  · rw [dataTypeAfter, hd]
  · rw [hg, hs]
    rfl

theorem recent_of_read {source rest : Source} {p : Persisted α}
    (h34 : source.bytes.head? = some 3 ∨ source.bytes.head? = some 4)
    (h : (Persisted.read source).result = .ok (p, rest)) : 3 ≤ p.version := by
  rw [Persisted.head_of_read h] at h34
  rcases h34 with h34 | h34
  · rw [Option.some.inj h34]
    decide
  · rw [Option.some.inj h34]
    decide

/-- Loading a recent file and restoring it come to the same. -/
theorem load_eq_restore (t : Table α) {source : Source}
    (h34 : source.bytes.head? = some 3 ∨ source.bytes.head? = some 4) :
    t.loaded source = (restore source t.fallthrough).result := by
  cases hp : (Persisted.read (α := α) source).result with
  | error e =>
    rw [loaded_eq, result_restore, hp]
    rfl
  | ok x =>
    obtain ⟨p, rest⟩ := x
    obtain ⟨index, dataType, sparseGrad, shapes, happly⟩ :=
      apply_of_recent (Persisted.versioned_of_read hp) (recent_of_read h34 hp)
    obtain ⟨type, hm⟩ := (Persisted.sound_of_read hp).storable
    have ht := matrixDataType_eq_ok.mpr hm.elementType_eq
    have hr := restore_eq_ok.mpr ⟨p, type, hp, ht, happly (blank p type t.fallthrough)⟩
    rw [loaded_eq_ok.mpr ⟨p, hp, happly t⟩]
    exact hr.symm

/-- After any history of loads, a table is the one that its start and the files taken
in determine; and loading a recent file comes to the same as restoring it. -/
theorem retains_after_loads {start : Table α} (h : start.Reachable) (sources : List Source) :
    (∀ t, Retains start (start.taken sources) t ↔ t = sources.foldl attempt start) ∧
    ∀ (t : Table α) (source : Source),
      source.bytes.head? = some 3 ∨ source.bytes.head? = some 4 →
        t.loaded source = (restore source t.fallthrough).result := by
  have hr : Retains start (start.taken sources) (sources.foldl attempt start) :=
    (retains_start start).attempts h.coherent sources
  refine ⟨?_, fun t source => t.load_eq_restore⟩
  intro t
  constructor
  · intro ht
    exact ht.unique hr
  · rintro rfl
    exact hr

/-- A version that does not exist, and then a file of the third version. -/
def sampleHistory : List Source := [⟨[9], .endOfData⟩, Persisted.oneItem 0]

theorem retains_pair :
    Retains pair (pair.taken sampleHistory) (sampleHistory.foldl attempt pair) ∧
      (pair.taken sampleHistory).length = 1 ∧
      (sampleHistory.foldl attempt pair).entries = [(7, 1)] ∧
      pair.loaded (Persisted.oneItem 0) = (restore (Persisted.oneItem 0) .none).result := by
  obtain ⟨hr, hl⟩ := retains_after_loads reachable_pair sampleHistory
  exact ⟨(hr _).mpr rfl, by decide +kernel, by decide +kernel, hl pair _ (.inl rfl)⟩

end VectorTable.Table
